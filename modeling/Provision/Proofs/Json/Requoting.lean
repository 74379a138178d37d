import Provision.Proofs.Json.Depth
import Provision.Proofs.Manifest.Respelling

namespace Provision.Json

open Provision.Text
open Provision.Manifest (Alike IsVersionKey isSingle isWord Respelled)
open Provision.Yaml (IsVersionText)

/-- Texts that are the same but for quotes around numbers behind the keys of versions and ranges. The
flag tells that such a key may stand in front. -/
inductive Requoted : Bool → List Char → List Char → Prop
  | same {key} (cs) : Requoted key cs cs
  | blank {key c cs ds} (hc : isSpace c) (h : Requoted key cs ds) : Requoted key (c :: cs) (c :: ds)
  | mark {key c cs ds} (hc : c ≠ '"') (h : Requoted false cs ds) : Requoted key (c :: cs) (c :: ds)
  | text {key body es cs ds} (hbody : readText none (body ++ cs) = .ok (es, cs))
      (h : Requoted (decide (IsVersionKey (textOf es))) cs ds) :
      Requoted key ('"' :: (body ++ cs)) ('"' :: (body ++ ds))
  | version {t a blanks cs ds v} (ht : IsVersionText t a) (hblanks : ∀ c ∈ blanks, isSpace c)
      (hnumber : readNumber .asText [] (t.toList ++ cs) = .ok (v, cs)) (h : Requoted false cs ds) :
      Requoted true (':' :: (blanks ++ (t.toList ++ cs)))
        (':' :: (blanks ++ '"' :: (t.toList ++ '"' :: ds)))

variable {key : Bool} {c : Char} {cs ds : List Char}

theorem Requoted.weaken (h : Requoted key cs ds) : Requoted true cs ds := by
  induction h with
  | same cs => exact .same cs
  | blank hc _ ih => exact .blank hc ih
  | mark hc h => exact .mark hc h
  | text hbody h => exact .text hbody h
  | version ht hblanks hnumber h => exact .version ht hblanks hnumber h

theorem Requoted.of_false (h : Requoted false cs ds) : Requoted key cs ds := by
  generalize hfalse : false = b at h
  induction h with
  | same cs => exact .same cs
  | blank hc _ ih => exact .blank hc (ih hfalse)
  | mark hc h => exact .mark hc h
  | text hbody h => exact .text hbody h
  | version => cases hfalse

theorem Requoted.head?_eq (h : Requoted key cs ds) : ds.head? = cs.head? := by
  cases h <;> rfl

theorem Requoted.isEmpty_eq (h : Requoted key cs ds) : ds.isEmpty = cs.isEmpty := by
  cases h <;> rfl

theorem Requoted.tail (h : Requoted key (c :: cs) ds) (hquote : c ≠ '"') (hcolon : c ≠ ':') :
    ∃ ds', ds = c :: ds' ∧ Requoted true cs ds' := by
  cases h with
  | same => exact ⟨_, rfl, .same _⟩
  | blank _ h => exact ⟨_, rfl, h.weaken⟩
  | mark _ h => exact ⟨_, rfl, h.weaken⟩
  | text => exact absurd rfl hquote
  | version => exact absurd rfl hcolon

theorem Requoted.front (h : Requoted true cs ds) (c : Char) (hquote : c ≠ '"') (hcolon : c ≠ ':') :
    (∃ cs' ds', cs = c :: cs' ∧ ds = c :: ds' ∧ Requoted true cs' ds') ∨
      cs.head? ≠ some c ∧ ds.head? ≠ some c := by
  by_cases hc : cs.head? = some c
  · obtain ⟨cs', rfl⟩ := List.head?_eq_some_iff.mp hc
    obtain ⟨ds', rfl, htail⟩ := h.tail hquote hcolon
    exact Or.inl ⟨cs', ds', rfl, rfl, htail⟩
  · exact Or.inr ⟨hc, h.head?_eq ▸ hc⟩

theorem Requoted.skipSpace (h : Requoted key cs ds) : Requoted key (skipSpace cs) (skipSpace ds) := by
  have hkeep {key : Bool} {c : Char} {cs ds : List Char} (hc : ¬isSpace c)
      (h : Requoted key (c :: cs) (c :: ds)) :
      Requoted key (Json.skipSpace (c :: cs)) (Json.skipSpace (c :: ds)) := by
    unfold Json.skipSpace
    rwa [List.dropWhile_cons_of_neg hc, List.dropWhile_cons_of_neg hc]
  have hdrop {key : Bool} {c : Char} {cs ds : List Char} (hc : isSpace c)
      (h : Requoted key (Json.skipSpace cs) (Json.skipSpace ds)) :
      Requoted key (Json.skipSpace (c :: cs)) (Json.skipSpace (c :: ds)) := by
    unfold Json.skipSpace
    rwa [List.dropWhile_cons_of_pos hc, List.dropWhile_cons_of_pos hc]
  induction h with
  | same cs => exact .same _
  | blank hc _ ih => exact hdrop hc ih
  | @mark key c cs ds hc h ih =>
    by_cases hspace : isSpace c
    · exact hdrop hspace ih.of_false
    · exact hkeep hspace (.mark hc h)
  | text hbody h => exact hkeep (by decide) (.text hbody h)
  | version ht hblanks hnumber h => exact hkeep (by decide) (.version ht hblanks hnumber h)

theorem Requoted.span {p : Char → Bool} (hquote : p '"' = false) (hcolon : p ':' = false)
    (h : Requoted key cs ds) :
    ds.takeWhile p = cs.takeWhile p ∧ Requoted true (cs.dropWhile p) (ds.dropWhile p) := by
  have hcons {c : Char} {cs ds : List Char} (h : Requoted true (c :: cs) (c :: ds))
      (ih : p c → ds.takeWhile p = cs.takeWhile p ∧ Requoted true (cs.dropWhile p) (ds.dropWhile p)) :
      (c :: ds).takeWhile p = (c :: cs).takeWhile p ∧
        Requoted true ((c :: cs).dropWhile p) ((c :: ds).dropWhile p) := by
    by_cases hc : p c
    · rw [List.takeWhile_cons_of_pos hc, List.takeWhile_cons_of_pos hc, List.dropWhile_cons_of_pos hc,
        List.dropWhile_cons_of_pos hc, (ih hc).1]
      exact ⟨rfl, (ih hc).2⟩
    · rw [List.takeWhile_cons_of_neg hc, List.takeWhile_cons_of_neg hc, List.dropWhile_cons_of_neg hc,
        List.dropWhile_cons_of_neg hc]
      exact ⟨rfl, h⟩
  induction h with
  | same cs => exact ⟨rfl, .same _⟩
  | blank hc h ih => exact hcons (.blank hc h.weaken) fun _ => ih
  | mark hc h ih => exact hcons (.mark hc h) fun _ => ih
  | text hbody h => exact hcons (.text hbody h) fun hc => by rw [hquote] at hc; cases hc
  | version ht hblanks hnumber h =>
    exact hcons (.version ht hblanks hnumber h) fun hc => by rw [hcolon] at hc; cases hc

/-! ### Numbers -/

structure CutsAlike (x y : List Char × List Char) : Prop where
  front : y.1 = x.1
  rest : Requoted true x.2 y.2

theorem cutsAlike_digitSpan (h : Requoted key cs ds) : CutsAlike (digitSpan cs) (digitSpan ds) := by
  rw [digitSpan, digitSpan, List.span_eq_takeWhile_dropWhile, List.span_eq_takeWhile_dropWhile]
  obtain ⟨hfront, hrest⟩ := h.span (p := Char.isDigit) rfl rfl
  exact ⟨hfront, hrest⟩

theorem Requoted.nil (h : Requoted key [] ds) : ds = [] :=
  List.head?_eq_none_iff.mp h.head?_eq

theorem cutsAlike_wholeSpan (h : Requoted key cs ds) : CutsAlike (wholeSpan cs) (wholeSpan ds) := by
  by_cases hzero : cs.head? = some '0'
  · obtain ⟨cs, rfl⟩ := List.head?_eq_some_iff.mp hzero
    obtain ⟨ds, rfl, htail⟩ := h.tail (by decide) (by decide)
    exact ⟨rfl, htail⟩
  · have hnot {cs : List Char} (h : cs.head? ≠ some '0') : wholeSpan cs = digitSpan cs := by
      unfold wholeSpan
      split
      · exact absurd rfl h
      · rfl
    rw [hnot hzero, hnot (h.head?_eq ▸ hzero)]
    exact cutsAlike_digitSpan h

theorem cutsAlike_fractionSpan (h : Requoted true cs ds) :
    CutsAlike (fractionSpan cs) (fractionSpan ds) := by
  by_cases hpoint : cs.head? = some '.'
  · obtain ⟨cs, rfl⟩ := List.head?_eq_some_iff.mp hpoint
    obtain ⟨ds, rfl, htail⟩ := h.tail (by decide) (by decide)
    have hdigits := cutsAlike_digitSpan htail
    simp only [fractionSpan]
    generalize digitSpan cs = x, digitSpan ds = y at hdigits
    obtain ⟨front, rest⟩ := x
    obtain ⟨front', rest'⟩ := y
    obtain rfl : front' = front := hdigits.front
    cases front' with
    | nil => exact ⟨rfl, h⟩
    | cons => exact ⟨rfl, hdigits.rest⟩
  · have hnot {cs : List Char} (h : cs.head? ≠ some '.') : fractionSpan cs = ([], cs) := by
      unfold fractionSpan
      split
      · exact absurd rfl h
      · rfl
    rw [hnot hpoint, hnot (h.head?_eq ▸ hpoint)]
    exact ⟨rfl, h⟩

theorem cutsAlike_exponentSign (h : Requoted true cs ds) :
    CutsAlike (exponentSign cs) (exponentSign ds) := by
  cases cs with
  | nil =>
    obtain rfl := h.nil
    exact ⟨rfl, .same []⟩
  | cons c cs =>
    by_cases hplus : c = '+'
    · subst hplus
      obtain ⟨ds, rfl, htail⟩ := h.tail (by decide) (by decide)
      exact ⟨rfl, htail⟩
    · by_cases hminus : c = '-'
      · subst hminus
        obtain ⟨ds, rfl, htail⟩ := h.tail (by decide) (by decide)
        exact ⟨rfl, htail⟩
      · have hnot {cs : List Char} (h : cs.head? = some c) : exponentSign cs = ([], cs) := by
          unfold exponentSign
          split
          · exact absurd (Option.some.inj h).symm hplus
          · exact absurd (Option.some.inj h).symm hminus
          · rfl
        rw [hnot rfl, hnot h.head?_eq]
        exact ⟨rfl, h⟩

theorem cutsAlike_exponentSpan (h : Requoted true cs ds) :
    CutsAlike (exponentSpan cs) (exponentSpan ds) := by
  cases cs with
  | nil =>
    obtain rfl := h.nil
    exact ⟨rfl, .same []⟩
  | cons c cs =>
    by_cases hc : c = 'e' ∨ c = 'E'
    · obtain ⟨ds, rfl, htail⟩ := h.tail (by rintro rfl; simp at hc) (by rintro rfl; simp at hc)
      have hsign := cutsAlike_exponentSign htail
      have hdigits := cutsAlike_digitSpan hsign.rest
      simp only [exponentSpan, if_pos hc, hsign.front]
      generalize digitSpan (exponentSign cs).2 = x, digitSpan (exponentSign ds).2 = y at hdigits
      obtain ⟨front, rest⟩ := x
      obtain ⟨front', rest'⟩ := y
      obtain rfl : front' = front := hdigits.front
      cases front' with
      | nil => exact ⟨rfl, h⟩
      | cons => exact ⟨rfl, hdigits.rest⟩
    · obtain ⟨ds, rfl⟩ := List.head?_eq_some_iff.mp h.head?_eq
      simp only [exponentSpan, if_neg hc]
      exact ⟨rfl, h⟩

/-- Both texts fail alike, or begin with related values before texts that differ in quotes. -/
def Reads {α : Type} (Q : α → α → Prop) (x y : Except Fault (α × List Char)) : Prop :=
  (∃ f, x = .error f ∧ y = .error f) ∨
    ∃ a b cs ds, x = .ok (a, cs) ∧ y = .ok (b, ds) ∧ Q a b ∧ Requoted true cs ds

theorem reads_error {α : Type} {Q : α → α → Prop} (f : Fault) : Reads Q (.error f) (.error f) :=
  Or.inl ⟨f, rfl, rfl⟩

theorem reads_ok {α : Type} {Q : α → α → Prop} {a b : α} (hQ : Q a b) (h : Requoted true cs ds) :
    Reads Q (.ok (a, cs)) (.ok (b, ds)) :=
  Or.inr ⟨a, b, cs, ds, rfl, rfl, hQ, h⟩

theorem reads_bind {α β : Type} {Q : α → α → Prop} {R : β → β → Prop}
    {x y : Except Fault (α × List Char)}
    {g g' : α × List Char → Except Fault (β × List Char)} (hx : Reads Q x y)
    (hg : ∀ a b cs ds, Q a b → Requoted true cs ds → Reads R (g (a, cs)) (g' (b, ds))) :
    Reads R (x >>= g) (y >>= g') := by
  obtain ⟨f, rfl, rfl⟩ | ⟨a, b, cs, ds, rfl, rfl, hQ, h⟩ := hx
  · exact reads_error f
  · exact hg a b cs ds hQ h

theorem reads_number {sign : List Char} (h : Requoted true cs ds) :
    Reads Respelled (readNumber .asText sign cs) (readNumber .asText sign ds) := by
  have hwhole := cutsAlike_wholeSpan h
  have hfraction := cutsAlike_fractionSpan hwhole.rest
  have hexponent := cutsAlike_exponentSpan hfraction.rest
  unfold readNumber
  dsimp only
  rw [hwhole.front, hfraction.front, hexponent.front]
  split
  case isTrue => exact reads_error _
  case isFalse =>
    split
    case isTrue =>
      split
      case h_1 => exact reads_ok (.single rfl) hexponent.rest
      case h_2 => exact reads_error _
    case isFalse => exact reads_ok (.single rfl) hexponent.rest

/-! ### Words -/

theorem Requoted.word : ∀ {w : List Char} {cs ds : List Char}, Requoted true cs ds → '"' ∉ w → ':' ∉ w →
    w.isPrefixOf ds = w.isPrefixOf cs ∧
      (w.isPrefixOf cs → Requoted true (cs.drop w.length) (ds.drop w.length))
  | [], _, _, h, _, _ => ⟨by simp, fun _ => h⟩
  | x :: w, [], ds, h, _, _ => by
    rw [h.nil]
    exact ⟨rfl, nofun⟩
  | x :: w, c :: cs, ds, h, hquote, hcolon => by
    rw [List.mem_cons, not_or] at hquote hcolon
    by_cases hc : x = c
    · subst hc
      obtain ⟨ds, rfl, htail⟩ := h.tail (Ne.symm hquote.1) (Ne.symm hcolon.1)
      obtain ⟨hbegins, hdrop⟩ := htail.word hquote.2 hcolon.2
      simp only [List.isPrefixOf_cons_cons, beq_self_eq_true, Bool.true_and, List.length_cons,
        List.drop_succ_cons]
      exact ⟨hbegins, hdrop⟩
    · obtain ⟨ds, rfl⟩ := List.head?_eq_some_iff.mp h.head?_eq
      have hne : (x == c) = false := beq_eq_false_iff_ne.mpr hc
      simp [List.isPrefixOf_cons_cons, hne]

def WordsAlike (x y : Option (Value × List Char)) : Prop :=
  (x = none ∧ y = none) ∨
    ∃ v cs ds, x = some (v, cs) ∧ y = some (v, ds) ∧ isSingle v ∧ Requoted true cs ds

theorem wordsAlike_findSome? (h : Requoted true cs ds) : ∀ {ws : List (String × Value)},
    (∀ e ∈ ws, '"' ∉ e.1.toList ∧ ':' ∉ e.1.toList ∧ isSingle e.2) →
      WordsAlike
        (ws.findSome? fun (word, v) =>
          let w := word.toList
          if w.isPrefixOf cs then some (v, cs.drop w.length) else none)
        (ws.findSome? fun (word, v) =>
          let w := word.toList
          if w.isPrefixOf ds then some (v, ds.drop w.length) else none)
  | [], _ => Or.inl ⟨rfl, rfl⟩
  | (word, v) :: ws, hws => by
    obtain ⟨⟨hquote, hcolon, hsingle⟩, hws⟩ := List.forall_mem_cons.mp hws
    obtain ⟨hbegins, hdrop⟩ := h.word hquote hcolon
    simp only [List.findSome?_cons]
    rw [hbegins]
    by_cases hfound : word.toList.isPrefixOf cs
    · rw [if_pos hfound, if_pos hfound]
      exact Or.inr ⟨v, _, _, rfl, rfl, hsingle, hdrop hfound⟩
    · rw [if_neg hfound, if_neg hfound]
      exact wordsAlike_findSome? h hws

theorem wordsAlike_readWord? (h : Requoted true cs ds) : WordsAlike (readWord? cs) (readWord? ds) :=
  wordsAlike_findSome? h (by decide)

/-! ### Texts -/

theorem Requoted.readText (h : Requoted key ('"' :: cs) ds) : ∃ ds', ds = '"' :: ds' ∧
    ((∃ f, readText none cs = .error f ∧ readText none ds' = .error f) ∨
      ∃ es rest rest', readText none cs = .ok (es, rest) ∧ readText none ds' = .ok (es, rest') ∧
        Requoted (decide (IsVersionKey (textOf es))) rest rest') := by
  generalize hquote : '"' :: cs = cs' at h
  cases h with
  | same =>
    subst hquote
    refine ⟨cs, rfl, ?_⟩
    cases hread : Json.readText none cs with
    | error f => exact Or.inl ⟨f, rfl, rfl⟩
    | ok found => exact Or.inr ⟨found.1, found.2, found.2, rfl, rfl, .same _⟩
  | blank hc =>
    obtain ⟨rfl, -⟩ := List.cons.inj hquote
    cases hc
  | mark hc =>
    obtain ⟨rfl, -⟩ := List.cons.inj hquote
    exact absurd rfl hc
  | text hbody h =>
    obtain ⟨-, rfl⟩ := List.cons.inj hquote
    obtain ⟨body, heq, hlocal⟩ := exists_body hbody
    obtain rfl := List.append_cancel_right heq
    exact ⟨_, rfl, Or.inr ⟨_, _, _, hbody, hlocal _, h⟩⟩
  | version => cases hquote

theorem not_escape_of_isNumeral (h : isNumeral c) : ¬(c.toNat < 0x20 ∨ c = '\\') := by
  simp only [isNumeral, Bool.or_eq_true, decide_eq_true_eq] at h
  obtain ((((h | rfl) | rfl) | rfl) | rfl) | rfl := h
  · rintro (hlt | rfl)
    · have hbounds := bounds_of_isDigit h
      omega
    · cases h
  all_goals decide

theorem readText_numerals (rest : List Char) : ∀ {cs : List Char}, (∀ c ∈ cs, isNumeral c) →
    readText none (cs ++ '"' :: rest) = .ok (cs.map Element.char, rest)
  | [], _ => rfl
  | c :: cs, h => by
    obtain ⟨hc, hcs⟩ := List.forall_mem_cons.mp h
    rw [List.cons_append, readText_char _ (not_escape_of_isNumeral hc), readText_numerals rest hcs]
    · rfl
    · rintro rfl
      cases hc

theorem textOf_numerals {cs : List Char} (h : ∀ c ∈ cs, isNumeral c) :
    textOf (cs.map Element.char) = String.ofList cs := by
  have hmark : mark ∉ cs := fun hmem => absurd (h mark hmem) (by decide)
  rw [textOf, List.flatMap_map, flatMap_held_of_not_mem hmark]

theorem readWord?_digit (h : c.isDigit) (cs : List Char) : readWord? (c :: cs) = none := by
  have hwords : ∀ e ∈ words, ∃ x ∈ e.1.toList.head?, x.isDigit = false := by simp [words]
  refine List.findSome?_eq_none_iff.mpr fun e he => ?_
  obtain ⟨x, hx, hdigit⟩ := hwords e he
  obtain ⟨w, hw⟩ := List.head?_eq_some_iff.mp hx
  refine if_neg ?_
  rw [hw, List.isPrefixOf_cons_cons, Bool.and_eq_true, beq_iff_eq]
  rintro ⟨rfl, -⟩
  rw [h] at hdigit
  cases hdigit

theorem readValue_digit {level depth : Nat} (h : c.isDigit) (cs : List Char) :
    readValue .asText level (depth + 1) (c :: cs) = readNumber .asText [] (c :: cs) := by
  have hne {d : Char} (hd : d.isDigit = false) : (c :: cs).head? ≠ some d := fun heq =>
    Yaml.ne_of_isDigit h hd (Option.some.inj heq)
  rw [readValue_bare (hne rfl) (hne rfl) (hne rfl), readWord?_digit h]
  exact if_neg (hne rfl)

theorem alike_of_readNumber {t : String} {a : Version} {v : Value} {cs : List Char}
    (ht : IsVersionText t a)
    (h : readNumber .asText [] (t.toList ++ cs) = .ok (v, cs)) :
    (∃ d ds, t.toList = d :: ds ∧ d.isDigit ∧ ∀ c ∈ d :: ds, isNumeral c) ∧ isWord v ∧
      Alike v (.text t) := by
  obtain ⟨d, digits, hcuts, hd, hv⟩ := of_readNumber h
  obtain hwritten : d :: digits = t.toList := List.append_cancel_right hcuts.append
  refine ⟨⟨d, digits, hwritten.symm, hd, hcuts.numeral⟩, ?_⟩
  rw [List.nil_append, hwritten] at hv
  obtain ⟨hdigits, i, hi, rfl⟩ | rfl := hv
  · refine ⟨rfl, ?_⟩
    obtain ⟨hdot, -⟩ | ⟨n, hn, -, rfl, -⟩ := ht.cases
    · exact absurd (hdigits _ hdot) (by decide)
    · have hn' : Numeral.int? 10 t.toList = some (n : Int) :=
        (Numeral.int?_eq_some_iff fun c hc => isDigit_of_ascii (hdigits c hc)).mpr ⟨n, hn, rfl⟩
      obtain rfl := Option.some.inj (hi.symm.trans hn')
      exact (Manifest.isSpelling_int hn.length_toString).alike (Manifest.isSpelling_text ht)
  · rw [String.ofList_toList]
    exact ⟨rfl, .refl _⟩

end Provision.Json
