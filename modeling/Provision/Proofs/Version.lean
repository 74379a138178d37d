import Provision.Proofs.Text.Pieces

namespace Provision

open Provision.Text

namespace Version

def tail (v : Version) : List Char :=
  if v.qualifier.isEmpty then [] else '.' :: v.qualifier.toList

theorem tail_cases (v : Version) :
    (v.qualifier = "" ∧ v.tail = []) ∨ v.tail = '.' :: v.qualifier.toList := by
  by_cases hq : v.qualifier.isEmpty
  · exact Or.inl ⟨String.isEmpty_iff.mp hq, if_pos hq⟩
  · exact Or.inr (if_neg hq)

theorem toList_text (v : Version) : v.text.toList =
    (toString v.major).toList ++ '.' :: ((toString v.minor).toList ++
      '.' :: ((toString v.micro).toList ++ v.tail)) := by
  have hdot : ".".toList = ['.'] := rfl
  by_cases hq : v.qualifier.isEmpty <;> simp [text, tail, hq, hdot]

theorem isDigit_of_mem_toString {n : Nat} {c : Char} (h : c ∈ (toString n).toList) : c.isDigit := by
  have hdigits : (toString n).toList = Nat.toDigits 10 n := by simp
  rw [hdigits] at h
  exact Nat.isDigit_of_mem_toDigits (by decide) (by decide) h

theorem eq_of_toString {m n : Nat} (h : (toString m).toList = (toString n).toList) : m = n := by
  have hdigits : Nat.toDigits 10 m = Nat.toDigits 10 n := by simpa using h
  calc
    m = Nat.ofDigitChars 10 (Nat.toDigits 10 m) 0 := Nat.ofDigitChars_ten_toDigits.symm
    _ = Nat.ofDigitChars 10 (Nat.toDigits 10 n) 0 := by rw [hdigits]
    _ = n := Nat.ofDigitChars_ten_toDigits

theorem head_tail {v : Version} {c : Char} (h : c ∈ v.tail.head?) : c = '.' := by
  obtain ⟨-, htail⟩ | htail := v.tail_cases
  · rw [htail] at h
    cases h
  · rw [htail] at h
    exact (Option.some.inj h).symm

theorem qualifier_eq_of_tail {v w : Version} (h : v.tail = w.tail) : v.qualifier = w.qualifier := by
  obtain ⟨hv, htail⟩ | htail := v.tail_cases <;> obtain ⟨hw, htail'⟩ | htail' := w.tail_cases <;>
    rw [htail, htail'] at h
  · exact hv.trans hw.symm
  · cases h
  · cases h
  · exact String.toList_inj.mp (List.cons.inj h).2

theorem text_injective : Function.Injective text := by
  intro v w h
  have hlist := congrArg String.toList h
  -- Each number is a run of digits, which the dot or the end behind it stops.
  have hstop (cs : List Char) : ∀ c ∈ ('.' :: cs).head?, ¬c.isDigit := by simp
  have htail (u : Version) : ∀ c ∈ u.tail.head?, ¬c.isDigit := fun c hc => head_tail hc ▸ by decide
  rw [toList_text, toList_text] at hlist
  obtain ⟨hmajor, hlist⟩ := run_append_inj (fun _ => isDigit_of_mem_toString)
    (fun _ => isDigit_of_mem_toString) (hstop _) (hstop _) hlist
  obtain ⟨hminor, hlist⟩ := run_append_inj (fun _ => isDigit_of_mem_toString)
    (fun _ => isDigit_of_mem_toString) (hstop _) (hstop _) (List.cons.inj hlist).2
  obtain ⟨hmicro, hlist⟩ := run_append_inj (fun _ => isDigit_of_mem_toString)
    (fun _ => isDigit_of_mem_toString) (htail v) (htail w) (List.cons.inj hlist).2
  obtain ⟨major, minor, micro, qualifier⟩ := v
  obtain ⟨major', minor', micro', qualifier'⟩ := w
  obtain rfl := eq_of_toString hmajor
  obtain rfl := eq_of_toString hminor
  obtain rfl := eq_of_toString hmicro
  obtain rfl := qualifier_eq_of_tail hlist
  rfl

theorem exists_head_text (v : Version) : ∃ c ∈ v.text.toList.head?, c.isDigit := by
  rw [toList_text]
  cases hdigits : (toString v.major).toList with
  | nil => simp at hdigits
  | cons c cs => exact ⟨c, rfl, isDigit_of_mem_toString (hdigits ▸ List.mem_cons_self)⟩

theorem toList_text_ne_nil (v : Version) : v.text.toList ≠ [] := by
  obtain ⟨c, hc, -⟩ := v.exists_head_text
  exact fun hnil => by simp [hnil] at hc

def IsPlain (v : Version) : Prop :=
  ∀ c ∈ v.qualifier.toList, isQualifierChar c

theorem isQualifierChar_of_isDigit {c : Char} (h : c.isDigit) : isQualifierChar c := by
  simp [isQualifierChar, Char.isAlphanum, h]

theorem IsPlain.of_mem_text {v : Version} (h : v.IsPlain) {c : Char} (hc : c ∈ v.text.toList) :
    c = '.' ∨ isQualifierChar c := by
  have hdigit (n : Nat) (hn : c ∈ (toString n).toList) : c = '.' ∨ isQualifierChar c :=
    Or.inr (isQualifierChar_of_isDigit (isDigit_of_mem_toString hn))
  have htail (ht : c ∈ v.tail) : c = '.' ∨ isQualifierChar c := by
    obtain ⟨-, htail⟩ | htail := v.tail_cases <;> rw [htail] at ht
    · cases ht
    · exact (List.mem_cons.mp ht).imp_right (h c)
  rw [toList_text] at hc
  simp only [List.mem_append, List.mem_cons] at hc
  obtain hc | hc | hc | hc | hc | hc := hc
  · exact hdigit _ hc
  · exact Or.inl hc
  · exact hdigit _ hc
  · exact Or.inl hc
  · exact hdigit _ hc
  · exact htail hc

theorem IsPlain.comma_not_mem {v : Version} (h : v.IsPlain) : ',' ∉ v.text.toList := fun hc =>
  (h.of_mem_text hc).elim (by decide) (by decide)

end Version

namespace VersionRange

def IsBare (r : VersionRange) : Prop :=
  r.maximum = none ∧ r.includeMinimum

/-- Two ranges are the same but for whether the upper bound that they do not have is in them. -/
def Twins (r q : VersionRange) : Prop :=
  r.IsBare ∧ q = { r with includeMaximum := !r.includeMaximum }

theorem text_of_isBare {r : VersionRange} (h : r.IsBare) : r.text = r.minimum.text := by
  rw [text, h.1, h.2]

def opening (r : VersionRange) : Char := if r.includeMinimum then '[' else '('

def closing (r : VersionRange) : Char := if r.includeMaximum then ']' else ')'

def upperText (r : VersionRange) : String :=
  (r.maximum.map Version.text).getD ""

theorem toList_text_of_not_isBare {r : VersionRange} (h : ¬r.IsBare) :
    r.text.toList =
      r.opening :: (r.minimum.text.toList ++ ',' :: (r.upperText.toList ++ [r.closing])) := by
  obtain ⟨minimum, includeMinimum, maximum, includeMaximum⟩ := r
  have hcomma : ",".toList = [','] := rfl
  have hopen (b : Bool) : (if b then "[" else "(").toList = [if b then '[' else '('] := by
    cases b <;> rfl
  have hclose (b : Bool) : (if b then "]" else ")").toList = [if b then ']' else ')'] := by
    cases b <;> rfl
  cases maximum with
  | none =>
    cases includeMinimum with
    | true => exact absurd ⟨rfl, rfl⟩ h
    | false => simp [text, opening, closing, upperText, hcomma, hclose]
  | some m => simp [text, opening, closing, upperText, hcomma, hopen, hclose]

theorem maximum_eq_of_upperText {r q : VersionRange} (h : r.upperText = q.upperText) :
    r.maximum = q.maximum := by
  have hne (v : Version) : v.text ≠ "" := by
    intro hv
    obtain ⟨c, hc, -⟩ := v.exists_head_text
    rw [hv] at hc
    cases hc
  unfold upperText at h
  generalize r.maximum = bound, q.maximum = bound' at h ⊢
  cases bound with
  | none =>
    cases bound' with
    | none => rfl
    | some m => exact absurd h.symm (hne m)
  | some m =>
    cases bound' with
    | none => exact absurd h (hne m)
    | some m' => exact congrArg some (Version.text_injective h)

theorem not_isDigit_opening (r : VersionRange) : ¬r.opening.isDigit := by
  cases h : r.includeMinimum <;> simp [opening, h]

theorem includeMinimum_eq_of_opening {r q : VersionRange} (h : r.opening = q.opening) :
    r.includeMinimum = q.includeMinimum := by
  cases hr : r.includeMinimum <;> cases hq : q.includeMinimum <;> simp_all [opening]

theorem includeMaximum_eq_of_closing {r q : VersionRange} (h : r.closing = q.closing) :
    r.includeMaximum = q.includeMaximum := by
  cases hr : r.includeMaximum <;> cases hq : q.includeMaximum <;> simp_all [closing]

theorem text_ne_of_isBare {r q : VersionRange} (hr : r.IsBare) (hq : ¬q.IsBare) : r.text ≠ q.text := by
  intro h
  obtain ⟨c, hc, hdigit⟩ := r.minimum.exists_head_text
  rw [← text_of_isBare hr, h, toList_text_of_not_isBare hq] at hc
  exact q.not_isDigit_opening (Option.some.inj hc ▸ hdigit)

theorem eq_or_twins_of_bare {r q : VersionRange} (hr : r.IsBare) (hq : q.IsBare)
    (h : r.minimum = q.minimum) : r = q ∨ r.Twins q := by
  obtain ⟨minimum, includeMinimum, maximum, includeMaximum⟩ := r
  obtain ⟨minimum', includeMinimum', maximum', includeMaximum'⟩ := q
  obtain ⟨rfl, hmin⟩ : maximum = none ∧ includeMinimum = true := hr
  obtain ⟨rfl, hmin'⟩ : maximum' = none ∧ includeMinimum' = true := hq
  subst hmin hmin'
  obtain rfl : minimum = minimum' := h
  by_cases hmax : includeMaximum = includeMaximum'
  · subst hmax
    exact Or.inl rfl
  · refine Or.inr ⟨⟨rfl, rfl⟩, ?_⟩
    rw [Bool.not_eq_eq_eq_not.mpr (Bool.eq_not.mpr hmax)]

/-- Ranges that are written alike are the same, or bare versions that differ in what is not written. -/
theorem eq_or_twins_of_text {r q : VersionRange} (hr : r.minimum.IsPlain) (hq : q.minimum.IsPlain)
    (h : r.text = q.text) : r = q ∨ r.Twins q := by
  by_cases hbr : r.IsBare <;> by_cases hbq : q.IsBare
  · rw [text_of_isBare hbr, text_of_isBare hbq] at h
    exact eq_or_twins_of_bare hbr hbq (Version.text_injective h)
  · exact absurd h (text_ne_of_isBare hbr hbq)
  · exact absurd h.symm (text_ne_of_isBare hbq hbr)
  · have hlist := congrArg String.toList h
    rw [toList_text_of_not_isBare hbr, toList_text_of_not_isBare hbq] at hlist
    obtain ⟨hopening, hlist⟩ := List.cons.inj hlist
    have hcomma {v : Version} (hv : v.IsPlain) : ∀ c ∈ v.text.toList, c != ',' := fun c hc =>
      bne_iff_ne.mpr fun heq => hv.comma_not_mem (heq ▸ hc)
    obtain ⟨hminimum, hlist⟩ := run_append_inj (hcomma hr) (hcomma hq) (by simp) (by simp) hlist
    obtain ⟨hupper, hclosing⟩ := List.append_inj' (List.cons.inj hlist).2 rfl
    have hmaximum := maximum_eq_of_upperText (String.toList_inj.mp hupper)
    have hmin := Version.text_injective (String.toList_inj.mp hminimum)
    have hincludeMin := includeMinimum_eq_of_opening hopening
    have hincludeMax := includeMaximum_eq_of_closing (List.cons.inj hclosing).1
    obtain ⟨minimum, includeMinimum, maximum, includeMaximum⟩ := r
    obtain ⟨minimum', includeMinimum', maximum', includeMaximum'⟩ := q
    exact Or.inl (VersionRange.mk.injEq .. ▸ ⟨hmin, hincludeMin, hmaximum, hincludeMax⟩)

end VersionRange

/-! ### What is read -/

section Returns

variable {α β : Type} {P : α → Prop} {Q : β → Prop}

def Returns (P : α → Prop) (x : Except Failure α) : Prop :=
  ∀ ⦃a⦄, x = .ok a → P a

theorem returns_pure {a : α} (h : P a) : Returns P (pure a) := by
  rintro _ ⟨⟩
  exact h

theorem returns_throw (f : Failure) : Returns P (throw f) := nofun

theorem returns_bind {x : Except Failure α} {g : α → Except Failure β} (hx : Returns P x)
    (hg : ∀ a, P a → Returns Q (g a)) : Returns Q (x >>= g) := by
  intro b hb
  cases hxa : x with
  | error f =>
    rw [hxa] at hb
    cases hb
  | ok a =>
    rw [hxa] at hb
    exact hg a (hx hxa) hb

theorem returns_after {x : Except Failure α} {g : α → Except Failure β} (hg : ∀ a, Returns Q (g a)) :
    Returns Q (x >>= g) :=
  returns_bind (P := fun _ => True) (fun _ _ => trivial) fun a _ => hg a

theorem returns_unless {c : Prop} [Decidable c] {f : Failure} {g : PUnit → Except Failure β}
    (hg : ¬c → Returns Q (g ⟨⟩)) : Returns Q (if c then throw f >>= g else g ⟨⟩) := by
  split
  case isTrue => nofun
  case isFalse h => exact hg h

end Returns

namespace Version

theorem returns_ofTrimmed (raw : List Char) : Returns IsPlain (ofTrimmed raw) := by
  refine returns_after fun numbers => returns_unless fun _ => returns_unless fun hchars => ?_
  refine returns_pure fun c hc => ?_
  have hall : (dotted ((splitOnChar '.' raw).drop 3)).all isQualifierChar := by simpa using hchars
  rw [String.toList_ofList] at hc
  exact List.all_eq_true.mp hall c hc

theorem isPlain_default : IsPlain {} := by
  intro c hc
  cases hc

theorem returns_ofChars (cs : List Char) : Returns IsPlain (ofChars cs) := by
  unfold ofChars
  dsimp only
  split
  · exact returns_pure isPlain_default
  · exact returns_ofTrimmed _

theorem returns_ofValue (v : Value) : Returns IsPlain (ofValue v) := by
  unfold ofValue
  split
  · exact returns_pure isPlain_default
  · exact returns_after fun s => returns_ofChars _

end Version

namespace VersionRange

theorem returns_ofBracketed (raw : List Char) (opening closing : Char) (body : List Char) :
    Returns (fun r => r.minimum.IsPlain) (ofBracketed raw opening closing body) := by
  have hchecked (r : VersionRange) (h : r.minimum.IsPlain) :
      Returns (fun r => r.minimum.IsPlain) (checked r) := by
    unfold checked
    split
    · exact returns_pure h
    · exact returns_throw _
  unfold ofBracketed
  split
  · exact returns_throw _
  · refine returns_unless fun _ => returns_bind (Version.returns_ofChars _) fun minimum hminimum => ?_
    dsimp only
    split <;> exact returns_after fun _ => hchecked _ hminimum

theorem returns_ofTrimmed (raw : List Char) :
    Returns (fun r => r.minimum.IsPlain) (ofTrimmed raw) := by
  unfold ofTrimmed
  split
  · exact returns_pure Version.isPlain_default
  · split
    · split
      · split
        · exact returns_ofBracketed _ _ _ _
        · exact returns_throw _
      · exact returns_throw _
    · exact returns_bind (Version.returns_ofChars _) fun _ h => returns_pure h

/-- A range is read from a value, or is that of one version that is. -/
def IsRead (r : VersionRange) : Prop :=
  ∃ v, ofValue v = .ok r ∨ exactlyValue v = .ok r

theorem IsRead.isPlain {r : VersionRange} (h : r.IsRead) : r.minimum.IsPlain := by
  obtain ⟨v, h | h⟩ := h
  · have hreturns : Returns (fun r => r.minimum.IsPlain) (ofValue v) := by
      unfold ofValue
      split
      · exact returns_pure Version.isPlain_default
      · exact returns_after fun s => returns_ofTrimmed _
    exact hreturns h
  · have hreturns : Returns (fun r => r.minimum.IsPlain) (exactlyValue v) :=
      returns_bind (Version.returns_ofValue v) fun _ h => returns_pure h
    exact hreturns h

end VersionRange

end Provision
