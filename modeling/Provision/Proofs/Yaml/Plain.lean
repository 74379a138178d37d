import Provision.Proofs.VersionRange.Grammar
import Provision.Proofs.Version.RoundTrip
import Provision.Yaml.Scalar.Typed

namespace Provision.Yaml

open Provision.Text

variable {cs rest : List Char} {t : String} {v : Version} {n : Nat}

theorem ne_of_isDigit {c d : Char} (hc : c.isDigit) (hd : d.isDigit = false) : c ≠ d := by
  rintro rfl
  rw [hd] at hc
  cases hc

theorem dropSign_of_isDigit {d : Char} (hd : d.isDigit) : Form.dropSign (d :: rest) = d :: rest := by
  unfold Form.dropSign
  split
  case h_1 heq => exact absurd (List.cons.inj heq).1 (ne_of_isDigit hd (by decide))
  case h_2 heq => exact absurd (List.cons.inj heq).1 (ne_of_isDigit hd (by decide))
  case h_3 => rfl

/-! ### Forms with a dot -/

theorem dot_not_mem_of_all {p : Char → Bool} (hp : p '.' = false) (h : cs.all p) :
    '.' ∉ cs := fun hdot =>
  absurd (List.all_eq_true.mp h _ hdot) (by simp [hp])

theorem dot_not_mem_of_isSixties (h : Form.isSixties cs) : '.' ∉ cs := by
  induction cs using Form.isSixties.induct with
  | case1 a rest ih ih' =>
    unfold Form.isSixties at h
    simp only [Bool.and_eq_true, Bool.or_eq_true] at h
    obtain ⟨ha, h⟩ := h
    have ha : '.' ≠ a := (ne_of_isDigit ha (by decide)).symm
    have hrest : '.' ∉ rest := by
      obtain (hempty | hsixties) | htwo := h
      · rw [List.isEmpty_iff.mp hempty]
        exact List.not_mem_nil
      · exact ih hsixties
      · cases rest with
        | nil => cases htwo
        | cons b rest =>
          simp only [Bool.and_eq_true, Bool.or_eq_true, decide_eq_true_eq] at htwo
          obtain ⟨⟨-, hb⟩, htwo⟩ := htwo
          have hb : '.' ≠ b := (ne_of_isDigit hb (by decide)).symm
          refine List.not_mem_cons_of_ne_of_not_mem hb ?_
          obtain hempty | hsixties := htwo
          · rw [List.isEmpty_iff.mp hempty]
            exact List.not_mem_nil
          · exact ih' hsixties
    exact List.not_mem_cons_of_ne_of_not_mem (by decide) (List.not_mem_cons_of_ne_of_not_mem ha hrest)
  | case2 cs hcs =>
    rw [Form.isSixties] at h
    · cases h
    · exact hcs

theorem dot_not_mem_of_isInt (h : Form.isInt cs) (hsign : Form.dropSign cs = cs) : '.' ∉ cs := by
  rw [Form.isInt, hsign] at h
  split at h
  case h_1 rest =>
    simp only [Bool.or_eq_true] at h
    refine List.not_mem_cons_of_ne_of_not_mem (by decide) ?_
    obtain (hempty | hoctal) | hmarked := h
    · rw [List.isEmpty_iff.mp hempty]
      exact List.not_mem_nil
    · exact dot_not_mem_of_all (by decide) hoctal
    · split at hmarked
      · exact List.not_mem_cons_of_ne_of_not_mem (by decide)
          (dot_not_mem_of_all (by decide) (Bool.and_eq_true_iff.mp hmarked).2)
      · exact List.not_mem_cons_of_ne_of_not_mem (by decide)
          (dot_not_mem_of_all (by decide) (Bool.and_eq_true_iff.mp hmarked).2)
      · cases hmarked
  case h_2 c rest _ =>
    simp only [Bool.and_eq_true, Bool.or_eq_true] at h
    obtain ⟨hc, h⟩ := h
    have hc : '.' ≠ c := (ne_of_isDigit hc (by decide)).symm
    refine List.not_mem_cons_of_ne_of_not_mem hc ?_
    obtain hdigits | hsixties := h
    · exact dot_not_mem_of_all (by decide) hdigits
    · rw [← List.takeWhile_append_dropWhile (p := Form.isDigitOrLine) (l := rest), List.mem_append]
      rintro (hdot | hdot)
      · exact absurd (List.mem_takeWhile_imp hdot) (by decide)
      · exact dot_not_mem_of_isSixties hsixties hdot
  case h_3 => cases h

theorem head?_of_timestamp {p : TimestampParts} (hline : dropLineEnd cs = cs)
    (h : TimestampParts.ofChars? cs = some p) : (cs.dropWhile Char.isDigit).head? = some '-' := by
  rw [TimestampParts.ofChars?, hline] at h
  dsimp only at h
  split at h
  case isTrue => cases h
  case isFalse hyear =>
    simp only [Bool.not_eq_true', Bool.not_eq_false, Bool.and_eq_true] at hyear
    obtain ⟨-, hyear⟩ := hyear
    have hhyphen : ∃ more, cs.drop 4 = '-' :: more := by
      cases hdrop : cs.drop 4 with
      | nil =>
        rw [hdrop] at h
        cases h
      | cons x more =>
        by_cases hx : x = '-'
        · exact ⟨more, hx ▸ rfl⟩
        · rw [hdrop, TimestampParts.expect?, if_neg hx] at h
          cases h
    obtain ⟨more, hmore⟩ := hhyphen
    rw [← List.take_append_drop 4 cs, hmore,
      List.dropWhile_append_of_pos (List.all_eq_true.mp hyear)]
    rfl

/-! ### Types -/

theorem ne_of_head {s : String} (hs : ¬(s.toList.head?.any Char.isDigit))
    (ht : t.toList.head?.any Char.isDigit) : t ≠ s := by
  rintro rfl
  exact hs ht

theorem contains_eq_false {ws : List String} (hws : ∀ s ∈ ws, ¬(s.toList.head?.any Char.isDigit))
    (ht : t.toList.head?.any Char.isDigit) : ws.contains t = false := by
  rw [← Bool.not_eq_true, List.contains_iff_mem]
  exact fun hmem => hws t hmem ht

/-- A plain scalar that begins with digits, up to its end or a dot, is an integer or a text. -/
theorem ofPlain_of_digits {a : List Char} (ht : t.toList = a ++ rest) (hne : a ≠ [])
    (hdigits : ∀ c ∈ a, c.isDigit) (hrest : rest = [] ∨ rest.head? = some '.')
    (hline : dropLineEnd t.toList = t.toList) :
    Tag.ofPlain false t = if Form.isInt t.toList then .int else .text := by
  have hhead : t.toList.head?.any Char.isDigit := by
    obtain ⟨d, more, rfl⟩ := List.exists_cons_of_ne_nil hne
    rw [ht]
    exact hdigits d List.mem_cons_self
  have hdrop : t.toList.dropWhile Char.isDigit = rest := by
    rw [ht, List.dropWhile_append_of_pos hdigits]
    obtain rfl | hdot := hrest
    · rfl
    · obtain ⟨more, rfl⟩ := List.head?_eq_some_iff.mp hdot
      rfl
  have htimestamp : TimestampParts.ofChars? t.toList = none := by
    cases h : TimestampParts.ofChars? t.toList with
    | none => rfl
    | some p =>
      have hhead := head?_of_timestamp hline h
      rw [hdrop] at hhead
      obtain rfl | hdot := hrest
      · cases hhead
      · rw [hdot] at hhead
        cases hhead
  have hbool : Form.isBool t = false := contains_eq_false (by decide) hhead
  have hnull : Form.isNull t = false := contains_eq_false (by decide) hhead
  have hchars : (if t = "\n" then t.toList else dropLineEnd t.toList) = t.toList := by
    rw [hline, ite_self]
  simp only [Tag.ofPlain, hchars, String.ofList_toList, hbool, hnull, htimestamp, Option.any_none,
    ne_of_head (s := "<<") (by decide) hhead, ne_of_head (s := "=") (by decide) hhead,
    Bool.false_eq_true, ↓reduceIte, Bool.false_and]

/-! ### Digits -/

def digitsIn (base : Nat) (cs : List Char) : Nat :=
  Numeral.ofDigits base (cs.map fun c => c.toNat - 48)

def IsOctal (cs : List Char) : Prop :=
  cs.head? = some '0' ∧ ∀ c ∈ cs, '0' ≤ c ∧ c ≤ '7'

theorem isInt_iff_of_digits (hne : cs ≠ []) (hdigits : ∀ c ∈ cs, c.isDigit) :
    Form.isInt cs ↔ cs.head? ≠ some '0' ∨ IsOctal cs := by
  obtain ⟨d, rest, rfl⟩ := List.exists_cons_of_ne_nil hne
  obtain ⟨hd, hrest⟩ := List.forall_mem_cons.mp hdigits
  rw [Form.isInt, dropSign_of_isDigit hd]
  split
  case h_1 rest heq =>
    obtain ⟨rfl, rfl⟩ := List.cons.inj heq
    simp only [List.head?_cons, ne_eq, not_true_eq_false, false_or, IsOctal, true_and,
      List.forall_mem_cons, Bool.or_eq_true]
    constructor
    · rintro ((hempty | hoctal) | hmarked)
      · rw [List.isEmpty_iff.mp hempty]
        exact ⟨by decide, nofun⟩
      · refine ⟨by decide, fun c hc => ?_⟩
        have hc' := List.all_eq_true.mp hoctal c hc
        simpa [ne_of_isDigit (hrest c hc) (d := '_') (by decide)] using hc'
      · split at hmarked
        case h_1 => exact absurd (hrest 'b' List.mem_cons_self) (by decide)
        case h_2 => exact absurd (hrest 'x' List.mem_cons_self) (by decide)
        case h_3 => cases hmarked
    · rintro ⟨-, hoctal⟩
      refine Or.inl (Or.inr (List.all_eq_true.mpr fun c hc => ?_))
      simpa using Or.inl (hoctal c hc)
  case h_2 c rest hzero heq =>
    obtain ⟨rfl, rfl⟩ := List.cons.inj heq
    have hall : rest.all Form.isDigitOrLine := List.all_eq_true.mpr fun c hc => by
      rw [Form.isDigitOrLine, hrest c hc, Bool.true_or]
    have hne : d ≠ '0' := hzero
    simp [hd, hall, hne]
  case h_3 heq => cases heq

theorem withoutLines_of_digits (hdigits : ∀ c ∈ cs, c.isDigit) : Scalar.withoutLines cs = cs := by
  refine List.filter_eq_self.mpr fun c hc => ?_
  simpa using ne_of_isDigit (hdigits c hc) (by decide)

theorem readInt_of_digits (hne : t.toList ≠ []) (hdigits : ∀ c ∈ t.toList, c.isDigit) :
    Scalar.readInt t = return .int (← Scalar.intMagnitude t.toList) := by
  rw [Scalar.readInt, withoutLines_of_digits hdigits]
  split
  case h_1 hnil => exact absurd hnil hne
  case h_2 rest heq => exact absurd (hdigits '-' (heq ▸ List.mem_cons_self)) (by decide)
  case h_3 rest heq => exact absurd (hdigits '+' (heq ▸ List.mem_cons_self)) (by decide)
  case h_4 => rfl

theorem intMagnitude_of_isOctal (h : IsOctal cs) :
    Scalar.intMagnitude cs = .ok (digitsIn 8 cs : Int) := by
  obtain ⟨hhead, hdigits⟩ := h
  obtain ⟨rest, rfl⟩ := List.head?_eq_some_iff.mp hhead
  have hread : Scalar.int 8 ('0' :: rest) = .ok (digitsIn 8 ('0' :: rest) : Int) := by
    rw [Scalar.int, Numeral.int?_eight (List.cons_ne_nil _ _) hdigits]
    rfl
  unfold Scalar.intMagnitude
  split
  case h_1 heq => cases heq
  case h_2 heq =>
    obtain ⟨-, rfl⟩ := List.cons.inj heq
    rfl
  case h_3 digits heq =>
    obtain ⟨-, rfl⟩ := List.cons.inj heq
    exact absurd (hdigits 'b' (by simp)) (by decide)
  case h_4 digits heq =>
    obtain ⟨-, rfl⟩ := List.cons.inj heq
    exact absurd (hdigits 'x' (by simp)) (by decide)
  case h_5 => exact hread
  case h_6 hzero => exact absurd rfl (hzero rest)

theorem intMagnitude_of_isLegible (h : IsLegible cs n) (hdigits : ∀ c ∈ cs, c.isDigit)
    (hhead : cs.head? ≠ some '0') : Scalar.intMagnitude cs = .ok (n : Int) := by
  have hread : Scalar.int 10 cs = .ok (n : Int) := by
    rw [Scalar.int, (Numeral.int?_eq_some_iff fun c hc => isDigit_of_ascii (hdigits c hc)).mpr ⟨n, h, rfl⟩]
    rfl
  have hcolon : cs.contains ':' = false := by
    rw [← Bool.not_eq_true, List.contains_iff_mem]
    exact fun hc => absurd (hdigits _ hc) (by decide)
  unfold Scalar.intMagnitude
  split
  case h_1 => exact absurd rfl h.1.1
  case h_2 => exact absurd rfl hhead
  case h_3 => exact absurd rfl hhead
  case h_4 => exact absurd rfl hhead
  case h_5 => exact absurd rfl hhead
  case h_6 => rw [hcolon, if_neg Bool.false_ne_true, hread]

/-! ### Versions -/

/-- A version as it is written without blanks at its ends, in ASCII. -/
structure IsVersionText (t : String) (v : Version) : Prop where
  ascii : ∀ c ∈ t.toList, c.toNat < 0x80
  trimmed : trim t.toList = t.toList
  ne : t ≠ ""
  read : Version.ofValue (.text t) = .ok v

/-- Whether a text is an integer in base eight, and another one in base ten. -/
def IsMisread (t : String) : Prop :=
  IsOctal t.toList ∧ digitsIn 8 t.toList ≠ digitsIn 10 t.toList

theorem IsVersionText.spells (h : IsVersionText t v) : Version.Spells IsLegible t.toList v := by
  rw [← h.trimmed]
  exact Version.ofChars_eq_ok_iff.mp h.read

theorem IsVersionText.dropLineEnd_eq (h : IsVersionText t v) : dropLineEnd t.toList = t.toList := by
  refine if_neg fun hlast => ?_
  rw [← h.trimmed] at hlast
  exact absurd (not_isBlank_of_getLast?_trim hlast) (by decide)

theorem IsVersionText.cases (h : IsVersionText t v) :
    ('.' ∈ t.toList ∧ Tag.ofPlain false t = .text) ∨
      ∃ n, IsLegible t.toList n ∧ (∀ c ∈ t.toList, c.isDigit) ∧ v = ⟨n, 0, 0, ""⟩ ∧
        Tag.ofPlain false t = if Form.isInt t.toList then .int else .text := by
  have hne : t.toList ≠ [] := fun hnil => h.ne (String.toList_eq_nil_iff.mp hnil)
  obtain ⟨a, n, rest, ha, ht, hrest⟩ := h.spells.exists_first hne
  have hdigits : ∀ c ∈ a, c.isDigit := fun c hc => by
    have hascii := h.ascii c (ht ▸ List.mem_append_left _ hc)
    have hdecimal := ha.1.isDecimalDigit c hc
    rw [isDecimalDigit, digitValue?, if_pos hascii] at hdecimal
    by_contra hnot
    rw [if_neg hnot] at hdecimal
    cases hdecimal
  have htag := ofPlain_of_digits ht ha.1.1 hdigits (hrest.imp_left And.left) h.dropLineEnd_eq
  obtain ⟨rfl, rfl⟩ | hdot := hrest
  · rw [List.append_nil] at ht
    rw [ht] at htag ⊢
    exact Or.inr ⟨n, ha, hdigits, rfl, htag⟩
  · obtain ⟨more, rfl⟩ := List.head?_eq_some_iff.mp hdot
    have hmem : '.' ∈ t.toList := ht ▸ List.mem_append_right _ List.mem_cons_self
    refine Or.inl ⟨hmem, htag.trans (if_neg fun hint => ?_)⟩
    refine dot_not_mem_of_isInt hint ?_ hmem
    obtain ⟨d, a, rfl⟩ := List.exists_cons_of_ne_nil ha.1.1
    rw [ht]
    exact dropSign_of_isDigit (hdigits d List.mem_cons_self)

/-- A version is a text, or an integer: the one that it consists of or, if it is misread, another. -/
theorem IsVersionText.read_plain (h : IsVersionText t v) :
    (Tag.ofPlain false t = .text ∧ ¬IsMisread t) ∨
      Tag.ofPlain false t = .int ∧ ∃ n : Nat, Scalar.readInt t = .ok (.int n) ∧
        (toString n).length ≤ Numeral.maxDigits ∧ (⟨n, 0, 0, ""⟩ = v ↔ ¬IsMisread t) := by
  obtain ⟨hdot, htag⟩ | ⟨n, hn, hdigits, rfl, htag⟩ := h.cases
  · refine Or.inl ⟨htag, fun hmisread => ?_⟩
    exact absurd (hmisread.1.2 _ hdot) (by decide)
  · have hten : digitsIn 10 t.toList = n := (hn.1.eq_ofDigits hdigits).symm
    have hne : t.toList ≠ [] := hn.1.1
    by_cases hint : Form.isInt t.toList
    case neg =>
      rw [if_neg hint] at htag
      refine Or.inl ⟨htag, fun hmisread => hint ?_⟩
      exact (isInt_iff_of_digits hne hdigits).mpr (Or.inr hmisread.1)
    case pos =>
      rw [if_pos hint] at htag
      refine Or.inr ⟨htag, ?_⟩
      rw [readInt_of_digits hne hdigits]
      by_cases hoctal : IsOctal t.toList
      · have hle : digitsIn 8 t.toList ≤ n := hten ▸ Numeral.ofDigits_le (by decide) _
        refine ⟨digitsIn 8 t.toList, ?_, ?_, ?_⟩
        · rw [intMagnitude_of_isOctal hoctal]
          rfl
        · rw [length_toString_le_iff (by decide)]
          exact Nat.lt_of_le_of_lt hle ((length_toString_le_iff (by decide)).mp hn.length_toString)
        · simp [IsMisread, hoctal, hten]
      · have hhead := ((isInt_iff_of_digits hne hdigits).mp hint).resolve_right hoctal
        refine ⟨n, ?_, hn.length_toString, ?_⟩
        · rw [intMagnitude_of_isLegible hn hdigits hhead]
          rfl
        · simp [IsMisread, hoctal]

end Provision.Yaml
