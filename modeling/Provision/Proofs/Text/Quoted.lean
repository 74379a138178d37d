import Mathlib.Algebra.Group.Nat.Defs
import Mathlib.Data.List.Basic
import Mathlib.Tactic.SplitIfs
import Provision.Text.Digit
import Provision.Text.Quoted

namespace Provision.Text

def Element.IsProper : Element → Prop
  | .char _ => True
  | .half unit => 0xD800 ≤ unit ∧ unit < 0xE000

/-- A text that holds all of its elements the way they are to be held. -/
structure IsProper (s : String) : Prop where
  held : (elements s.toList).flatMap Element.held = s.toList
  elements : ∀ e ∈ elements s.toList, e.IsProper

theorem IsProper.ext {s t : String} (hs : IsProper s) (ht : IsProper t)
    (h : Text.elements s.toList = Text.elements t.toList) : s = t := by
  rw [← String.toList_inj, ← hs.held, ← ht.held, h]

def ofCode (code : Nat) : Element :=
  if 0xD800 ≤ code ∧ code < 0xE000 then .half code else .char (Char.ofNat code)

theorem ofCode_code {e : Element} (h : e.IsProper) : ofCode e.code = e := by
  cases e with
  | half unit => exact if_pos h
  | char c =>
    have hvalid : c.toNat < 0xD800 ∨ 0xDFFF < c.toNat ∧ c.toNat < 0x110000 := c.valid
    have hnot : ¬(0xD800 ≤ c.toNat ∧ c.toNat < 0xE000) := by omega
    exact (if_neg hnot).trans (congrArg Element.char (Char.ofNat_toNat c))

theorem IsProper.eq_of_codes {s t : String} (hs : IsProper s) (ht : IsProper t)
    (h : codes s = codes t) : s = t := by
  have hback {u : String} (hu : IsProper u) : (codes u).map ofCode = Text.elements u.toList := by
    rw [codes, List.map_map]
    exact (List.map_congr_left fun e he => ofCode_code (hu.elements e he)).trans (List.map_id _)
  exact hs.ext ht (by rw [← hback hs, h, hback ht])

/-! ### Hexadecimal digits -/

def ofHexDigits (cs : List Char) : Nat :=
  cs.foldl (fun n c => n * 16 + (hexDigit? c).getD 0) 0

theorem hexDigit?_digitChar {n : Nat} (h : n < 16) : hexDigit? (Nat.digitChar n) = some n := by
  revert n
  decide

theorem length_hexDigits (width n : Nat) : (hexDigits width n).length = width := by
  induction width generalizing n with
  | zero => rfl
  | succ width ih => rw [hexDigits, List.length_append, ih, List.length_singleton]

theorem isHexDigit_of_mem_hexDigits {width n : Nat} {c : Char} (h : c ∈ hexDigits width n) :
    isHexDigit c := by
  induction width generalizing n with
  | zero => cases h
  | succ width ih =>
    obtain hfront | hlast := List.mem_append.mp h
    · exact ih hfront
    · rw [List.mem_singleton.mp hlast, isHexDigit, hexDigit?_digitChar (Nat.mod_lt n (by decide))]
      rfl

theorem ofHexDigits_hexDigits {width n : Nat} (h : n < 16 ^ width) :
    ofHexDigits (hexDigits width n) = n := by
  induction width generalizing n with
  | zero =>
    have hzero : n = 0 := by simpa using h
    rw [hzero]
    rfl
  | succ width ih =>
    have hfront : ofHexDigits (hexDigits width (n / 16)) = n / 16 :=
      ih (Nat.div_lt_of_lt_mul (by rwa [Nat.pow_succ, Nat.mul_comm] at h))
    rw [ofHexDigits, hexDigits, List.foldl_append, ← ofHexDigits, hfront, List.foldl_cons,
      List.foldl_nil, hexDigit?_digitChar (Nat.mod_lt n (by decide))]
    exact Nat.div_add_mod' n 16

namespace Quoted

/-! ### From the front -/

def readElement : List Char → Option (Element × List Char)
  | '\\' :: 'n' :: rest => some (.char '\n', rest)
  | '\\' :: 'r' :: rest => some (.char '\r', rest)
  | '\\' :: 't' :: rest => some (.char '\t', rest)
  | '\\' :: 'x' :: rest => some (ofCode (ofHexDigits (rest.take 2)), rest.drop 2)
  | '\\' :: 'u' :: rest => some (ofCode (ofHexDigits (rest.take 4)), rest.drop 4)
  | '\\' :: 'U' :: rest => some (ofCode (ofHexDigits (rest.take 8)), rest.drop 8)
  | '\\' :: c :: rest => some (.char c, rest)
  | c :: rest => some (.char c, rest)
  | [] => none

theorem readElement_of_ne {c : Char} (h : c ≠ '\\') (rest : List Char) :
    readElement (c :: rest) = some (.char c, rest) := by
  unfold readElement
  split <;> simp_all

theorem readDigits {e : Element} (h : e.IsProper) {width : Nat} (hwidth : e.code < 16 ^ width)
    (rest : List Char) :
    (ofCode (ofHexDigits ((hexDigits width e.code ++ rest).take width)),
      (hexDigits width e.code ++ rest).drop width) = (e, rest) := by
  have hlength := length_hexDigits width e.code
  rw [List.take_left' hlength, List.drop_left' hlength, ofHexDigits_hexDigits hwidth, ofCode_code h]

variable {quote : Char}

theorem readElement_escape (hquote : quote = '\'' ∨ quote = '"') (c : Char) (rest : List Char) :
    readElement (escape quote c ++ rest) = some (.char c, rest) := by
  have hproper : (Element.char c).IsProper := trivial
  have hvalid : c.toNat < 0xD800 ∨ 0xDFFF < c.toNat ∧ c.toNat < 0x110000 := c.valid
  unfold escape
  split_ifs with hescaped hline hreturn htab hplain hshort hmiddle
  · obtain rfl | rfl := hescaped
    · obtain rfl | rfl := hquote <;> rfl
    · rfl
  · rw [hline]
    rfl
  · rw [hreturn]
    rfl
  · rw [htab]
    rfl
  · exact readElement_of_ne (not_or.mp hescaped).2 rest
  · exact congrArg some (readDigits hproper hshort rest)
  · exact congrArg some (readDigits hproper hmiddle rest)
  · have hlong : c.toNat < 16 ^ 8 := by omega
    exact congrArg some (readDigits hproper hlong rest)

theorem readElement_escapeElement (hquote : quote = '\'' ∨ quote = '"') {e : Element}
    (h : e.IsProper) (rest : List Char) :
    readElement (escapeElement quote e ++ rest) = some (e, rest) := by
  cases e with
  | char c => exact readElement_escape hquote c rest
  | half unit =>
    have hsize : unit < 16 ^ 4 := Nat.lt_trans h.2 (by decide)
    exact congrArg some (readDigits h hsize rest)

theorem escapeElements_injective (hquote : quote = '\'' ∨ quote = '"') {es fs : List Element}
    (hes : ∀ e ∈ es, e.IsProper) (hfs : ∀ f ∈ fs, f.IsProper)
    (h : es.flatMap (escapeElement quote) = fs.flatMap (escapeElement quote)) : es = fs := by
  induction es generalizing fs with
  | nil =>
    cases fs with
    | nil => rfl
    | cons f fs =>
      have hread := readElement_escapeElement hquote (hfs f List.mem_cons_self)
        (fs.flatMap (escapeElement quote))
      rw [← List.flatMap_cons, ← h] at hread
      cases hread
  | cons e es ih =>
    have hread := readElement_escapeElement hquote (hes e List.mem_cons_self)
      (es.flatMap (escapeElement quote))
    rw [← List.flatMap_cons, h] at hread
    cases fs with
    | nil => cases hread
    | cons f fs =>
      rw [List.flatMap_cons, readElement_escapeElement hquote (hfs f List.mem_cons_self),
        Option.some_inj, Prod.mk.injEq] at hread
      obtain ⟨rfl, hrest⟩ := hread
      rw [ih (fun e he => hes e (List.mem_cons_of_mem _ he))
        (fun f hf => hfs f (List.mem_cons_of_mem _ hf)) hrest.symm]

/-! ### From the end -/

/-- Every quote has a backslash before it. -/
def IsGuarded (quote : Char) (cs : List Char) : Prop :=
  ∀ before after, cs = before ++ quote :: after → before.getLast? = some '\\'

theorem isGuarded_of_not_mem {cs : List Char} (h : quote ∉ cs) : IsGuarded quote cs :=
  fun before after hcs => absurd (hcs ▸ by simp) h

theorem IsGuarded.append {cs ds : List Char} (hcs : IsGuarded quote cs) (hds : IsGuarded quote ds) :
    IsGuarded quote (cs ++ ds) := by
  intro before after h
  obtain ⟨part, hbefore, hpart⟩ | ⟨part, hcut, hpart⟩ := List.append_eq_append_iff.mp h
  · rw [hbefore, List.getLast?_append, hds part after hpart]
    rfl
  · cases part with
    | nil => simpa [hcut] using hds [] after hpart.symm
    | cons c part =>
      cases hpart
      exact hcs before part hcut

theorem IsGuarded.flatMap {α : Type} {f : α → List Char} {xs : List α}
    (h : ∀ x ∈ xs, IsGuarded quote (f x)) : IsGuarded quote (xs.flatMap f) := by
  induction xs with
  | nil => exact isGuarded_of_not_mem nofun
  | cons x xs ih =>
    exact (h x List.mem_cons_self).append (ih fun y hy => h y (List.mem_cons_of_mem _ hy))

/-- What is written behind quotes is given back by both together, where no quote that opens it could
be one inside. -/
theorem append_quote_inj {x y body body' : List Char} (hbody : IsGuarded quote body)
    (hbody' : IsGuarded quote body') (hx : x.getLast? ≠ some '\\') (hy : y.getLast? ≠ some '\\')
    (h : x ++ quote :: body = y ++ quote :: body') : x = y ∧ body = body' := by
  -- Were one front longer, the quote behind it would stand in the other body, behind a backslash.
  obtain ⟨part, hcut, hpart⟩ | ⟨part, hcut, hpart⟩ := List.append_eq_append_iff.mp h
  · cases part with
    | nil => simp_all
    | cons c part =>
      cases hpart
      refine absurd ?_ hy
      rw [hcut, List.getLast?_append, List.getLast?_cons, hbody part body' rfl]
      rfl
  · cases part with
    | nil => simp_all
    | cons c part =>
      cases hpart
      refine absurd ?_ hx
      rw [hcut, List.getLast?_append, List.getLast?_cons, hbody' part body rfl]
      rfl

theorem isGuarded_digits (hquote : quote = '\'' ∨ quote = '"') {letter : Char}
    (hletter : letter ∈ ['x', 'u', 'U']) (width n : Nat) :
    IsGuarded quote ('\\' :: letter :: hexDigits width n) := by
  have hslash : quote ≠ '\\' := by
    obtain rfl | rfl := hquote <;> decide
  have hmarker : quote ≠ letter := by
    rintro rfl
    obtain rfl | rfl := hquote <;> exact absurd hletter (by decide)
  have hdigits : quote ∉ hexDigits width n := by
    intro hmem
    have hhex := isHexDigit_of_mem_hexDigits hmem
    obtain rfl | rfl := hquote <;> exact absurd hhex (by decide)
  exact isGuarded_of_not_mem (List.not_mem_cons_of_ne_of_not_mem hslash
    (List.not_mem_cons_of_ne_of_not_mem hmarker hdigits))

theorem isGuarded_backslash (hquote : quote = '\'' ∨ quote = '"') (c : Char) :
    IsGuarded quote ['\\', c] := by
  intro before after h
  match before with
  | [] =>
    cases h
    obtain h | h := hquote <;> exact absurd h (by decide)
  | [d] =>
    cases h
    rfl
  | _ :: _ :: _ => simp at h

theorem isGuarded_escape (hquote : quote = '\'' ∨ quote = '"') (c : Char) :
    IsGuarded quote (escape quote c) := by
  unfold escape
  split_ifs with hescaped hline hreturn htab hplain
  · exact isGuarded_backslash hquote c
  · exact isGuarded_backslash hquote 'n'
  · exact isGuarded_backslash hquote 'r'
  · exact isGuarded_backslash hquote 't'
  · exact isGuarded_of_not_mem fun h => hescaped (.inl (List.mem_singleton.mp h).symm)
  · exact isGuarded_digits hquote (by decide) 2 c.toNat
  · exact isGuarded_digits hquote (by decide) 4 c.toNat
  · exact isGuarded_digits hquote (by decide) 8 c.toNat

theorem isGuarded_escapeElements (hquote : quote = '\'' ∨ quote = '"') (es : List Element) :
    IsGuarded quote (es.flatMap (escapeElement quote)) := by
  refine IsGuarded.flatMap fun e _ => ?_
  cases e with
  | char c => exact isGuarded_escape hquote c
  | half unit => exact isGuarded_digits hquote (by decide) 4 unit

theorem quoteFor_eq (cs : List Char) : quoteFor cs = '\'' ∨ quoteFor cs = '"' := by
  unfold quoteFor
  split
  · exact .inr rfl
  · exact .inl rfl

/-- A proper text, quoted, is given back by any longer text that it ends, unless a backslash comes
before it. -/
theorem append_encode_inj {x y : List Char} {s t : String} (hs : IsProper s) (ht : IsProper t)
    (hx : x.getLast? ≠ some '\\') (hy : y.getLast? ≠ some '\\')
    (h : x ++ encode s.toList = y ++ encode t.toList) : x = y ∧ s = t := by
  have hquote := quoteFor_eq s.toList
  unfold encode at h
  dsimp only at h
  rw [← List.append_assoc, ← List.append_assoc] at h
  obtain ⟨hopen, hclose⟩ := List.append_inj' h rfl
  rw [← List.singleton_inj.mp hclose] at hopen
  obtain ⟨hfront, hbody⟩ := append_quote_inj (isGuarded_escapeElements hquote _)
    (isGuarded_escapeElements hquote _) hx hy hopen
  exact ⟨hfront, hs.ext ht (escapeElements_injective hquote hs.elements ht.elements hbody)⟩

end Quoted

end Provision.Text
