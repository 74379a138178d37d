import Provision.Proofs.Version
import Provision.Proofs.Version.Grammar
import Provision.Version.Constructed

namespace Provision

open Provision.Text

namespace Version

theorem bounds_of_isQualifierChar {c : Char} (h : isQualifierChar c) :
    0x2D ≤ c.toNat ∧ c.toNat ≤ 0x7A := by
  simp only [isQualifierChar, Bool.or_eq_true, decide_eq_true_eq] at h
  obtain (h | rfl) | rfl := h
  · obtain h | h := (Bool.or_eq_true _ _).mp h
    · exact ⟨Nat.le_trans (by decide) (bounds_of_isAlpha h).1, (bounds_of_isAlpha h).2⟩
    · exact ⟨Nat.le_trans (by decide) (bounds_of_isDigit h).1,
        Nat.le_trans (bounds_of_isDigit h).2 (by decide)⟩
  · decide
  · decide

theorem not_isBlank_of_isQualifierChar {c : Char} (h : isQualifierChar c) : isBlank c = false := by
  have hbounds := bounds_of_isQualifierChar h
  simp only [isBlank, Bool.or_eq_false_iff, Bool.and_eq_false_iff, decide_eq_false_iff_not,
    beq_eq_false_iff_ne]
  omega

theorem isDecimal_toString (n : Nat) : IsDecimal (toString n).toList n := by
  have hchars : (toString n).toList = Nat.toDigits 10 n := by simp
  have hdigits : ∀ c ∈ Nat.toDigits 10 n, c.isDigit := fun c hc =>
    Nat.isDigit_of_mem_toDigits (by decide) (by decide) hc
  rw [hchars]
  refine ⟨Nat.toDigits_ne_nil, (Nat.toDigits 10 n).map fun c => c.toNat - 48, ?_, ?_⟩
  · rw [List.forall₂_map_right_iff, List.forall₂_same]
    exact fun c hc => digitValue?_of_ascii (hdigits c hc)
  · calc
      Numeral.ofDigits 10 ((Nat.toDigits 10 n).map fun c => c.toNat - 48) =
          Nat.ofDigitChars 10 (Nat.toDigits 10 n) 0 := by
        rw [Numeral.ofDigits, List.foldl_map, Nat.ofDigitChars_eq_foldl]
        simp only [Nat.mul_comm]
        rfl
      _ = n := Nat.ofDigitChars_ten_toDigits

def IsShort (v : Version) : Prop :=
  ∀ n ∈ [v.major, v.minor, v.micro], (toString n).length ≤ Numeral.maxDigits

theorem not_isBlank_of_mem_text {v : Version} (h : v.IsPlain) :
    ∀ c ∈ v.text.toList, isBlank c = false := by
  intro c hc
  obtain rfl | hc := h.of_mem_text hc
  · decide
  · exact not_isBlank_of_isQualifierChar hc

theorem trim_eq_self_of_forall {cs : List Char} (h : ∀ c ∈ cs, isBlank c = false) : trim cs = cs :=
  trim_eq_self (fun c hc => h c (List.mem_of_mem_head? hc))
    fun c hc => h c (List.mem_of_getLast? hc)

theorem ofChars_text {v : Version} (hplain : v.IsPlain) (hshort : v.IsShort) :
    ofChars v.text.toList = .ok v := by
  rw [ofChars_eq_ok_iff, trim_eq_self_of_forall (not_isBlank_of_mem_text hplain), toList_text]
  obtain ⟨major, minor, micro, qualifier⟩ := v
  have hlegible (n : Nat) (hn : n ∈ [major, minor, micro]) : IsLegible (toString n).toList n :=
    ⟨isDecimal_toString n, hshort n hn⟩
  have hmajor := hlegible major (by simp)
  have hminor := hlegible minor (by simp)
  have hmicro := hlegible micro (by simp)
  obtain ⟨hq, htail⟩ | htail := tail_cases ⟨major, minor, micro, qualifier⟩ <;> rw [htail]
  · rw [List.append_nil]
    obtain rfl : qualifier = "" := hq
    exact .micro hmajor hminor hmicro
  · have hne : qualifier.toList ≠ [] := by
      intro hnil
      obtain rfl : qualifier = "" := String.toList_eq_nil_iff.mp hnil
      cases htail
    have hspells := Spells.qualified hmajor hminor hmicro hne hplain
    rwa [String.ofList_toList] at hspells

theorem Spells.isShort {cs : List Char} {v : Version} (h : Spells IsLegible cs v) : v.IsShort := by
  have hzero : (toString 0).length ≤ Numeral.maxDigits := by decide
  unfold IsShort
  cases h <;>
    simp only [List.forall_mem_cons, List.not_mem_nil, false_imp_iff, implies_true, and_true]
  case blank => exact ⟨hzero, hzero, hzero⟩
  case major ha => exact ⟨ha.length_toString, hzero, hzero⟩
  case minor ha hb => exact ⟨ha.length_toString, hb.length_toString, hzero⟩
  case micro ha hb hc => exact ⟨ha.length_toString, hb.length_toString, hc.length_toString⟩
  case qualified ha hb hc _ _ => exact ⟨ha.length_toString, hb.length_toString, hc.length_toString⟩

def IsReadable (v : Version) : Prop :=
  ∃ x, ofValue x = .ok v

/-- The versions that are read are those with the characters of qualifiers and with short numbers. -/
theorem isReadable_iff {v : Version} : v.IsReadable ↔ v.IsPlain ∧ v.IsShort := by
  constructor
  · rintro ⟨x, hx⟩
    refine ⟨returns_ofValue x hx, ?_⟩
    unfold ofValue at hx
    split at hx
    case h_1 =>
      cases hx
      exact (Spells.blank : Spells IsLegible [] {}).isShort
    case h_2 =>
      obtain ⟨s, -, hs⟩ := bind_eq_ok_iff.mp hx
      exact (ofChars_eq_ok_iff.mp hs).isShort
  · rintro ⟨hplain, hshort⟩
    exact ⟨.text v.text, ofChars_text hplain hshort⟩

theorem IsReadable.isPlain {v : Version} (h : v.IsReadable) : v.IsPlain :=
  (isReadable_iff.mp h).1

theorem IsReadable.isShort {v : Version} (h : v.IsReadable) : v.IsShort :=
  (isReadable_iff.mp h).2

theorem Spells.isReadable {cs : List Char} {v : Version} (h : Spells IsLegible cs v) :
    v.IsReadable := by
  refine isReadable_iff.mpr ⟨?_, h.isShort⟩
  cases h with
  | qualified _ _ _ _ hq =>
    intro c hc
    rw [String.toList_ofList] at hc
    exact hq c hc
  | blank | major | minor | micro => nofun

theorem IsReadable.spells_text {v : Version} (h : v.IsReadable) :
    Spells IsLegible v.text.toList v := by
  have hspells := ofChars_eq_ok_iff.mp (ofChars_text h.isPlain h.isShort)
  rwa [trim_eq_self_of_forall (not_isBlank_of_mem_text h.isPlain)] at hspells

end Version

namespace ConstructedVersion

variable {v w : ConstructedVersion} {major minor micro qualifier : Value}

def components (v : ConstructedVersion) : List Component := [v.major, v.minor, v.micro]

/-- What stands between the dots of the written form. -/
def pieces (v : ConstructedVersion) : List (List Char) :=
  v.components.map (fun c => c.text.toList) ++
    if v.qualifier.isEmpty then [] else [v.qualifier.toList]

theorem toList_text (v : ConstructedVersion) : v.text.toList = Version.dotted v.pieces := by
  have hdot : ".".toList = ['.'] := rfl
  by_cases hq : v.qualifier.isEmpty <;>
    simp [text, pieces, components, hq, hdot, Version.dotted]

/-- Numbers that are short enough to be written, and a qualifier that does not end in a line feed. -/
structure IsSteady (v : ConstructedVersion) : Prop where
  numbers : ∀ c ∈ v.components, ∃ n, c = .number n ∧ (toString n).length ≤ Numeral.maxDigits
  ending : v.qualifier.toList.getLast? ≠ some '\n'

theorem isQualifier_of_ofValues (h : ofValues major minor micro qualifier = .ok v) :
    isQualifier v.qualifier.toList := by
  unfold ofValues at h
  simp only [bind_eq_ok_iff] at h
  obtain ⟨_, -, _, -, _, -, h⟩ := h
  split at h
  · split at h
    · cases h
      assumption
    · cases h
  · cases h

theorem isQualifierChar_or_lineFeed {q : List Char} (h : isQualifier q) :
    ∀ c ∈ q, Version.isQualifierChar c ∨ c = '\n' ∧ q.getLast? = some '\n' := by
  rw [isQualifier, dropLineEnd] at h
  intro c hc
  split at h
  case isTrue hlast =>
    obtain ⟨front, rfl⟩ := List.getLast?_eq_some_iff.mp hlast
    rw [List.dropLast_concat] at h
    obtain hfront | hc := List.mem_append.mp hc
    · exact Or.inl (List.all_eq_true.mp h c hfront)
    · exact Or.inr ⟨List.mem_singleton.mp hc, hlast⟩
  case isFalse => exact Or.inl (List.all_eq_true.mp h c hc)

theorem isAlphanum_of_mem_text {c : Component} {x : Char} (hx : x ∈ c.text.toList) :
    x.isAlphanum := by
  cases c with
  | number n => simp [Char.isAlphanum, Version.isDigit_of_mem_toString hx]
  | truth b => cases b <;> exact List.all_eq_true.mp (by decide) x hx

theorem not_mem_of_mem_pieces (h : isQualifier v.qualifier.toList) {x : Char}
    (hx : ¬Version.isQualifierChar x) (hline : x ≠ '\n') : ∀ piece ∈ v.pieces, x ∉ piece := by
  have hcomponent : ∀ piece ∈ v.components.map (fun c => c.text.toList), x ∉ piece := by
    intro piece hpiece hmem
    obtain ⟨c, -, rfl⟩ := List.mem_map.mp hpiece
    exact hx (by simp [Version.isQualifierChar, isAlphanum_of_mem_text hmem])
  have hqualifier : x ∉ v.qualifier.toList := by
    intro hmem
    obtain hchar | ⟨heq, -⟩ := isQualifierChar_or_lineFeed h _ hmem
    · exact hx hchar
    · exact hline heq
  rw [pieces, List.forall_mem_append]
  refine ⟨hcomponent, ?_⟩
  split
  · exact List.forall_mem_nil _
  · exact List.forall_mem_singleton.mpr hqualifier

theorem splitOnChar_text (h : isQualifier v.qualifier.toList) :
    splitOnChar '.' v.text.toList = v.pieces := by
  rw [toList_text]
  exact Version.splitOnChar_dotted (List.cons_ne_nil _ _)
    (not_mem_of_mem_pieces h (by decide) (by decide))

theorem colon_not_mem_text (h : isQualifier v.qualifier.toList) : ':' ∉ v.text.toList := by
  rw [toList_text]
  intro hmem
  obtain heq | ⟨piece, hpiece, hmem⟩ := Version.eq_dot_or_mem_of_mem_dotted hmem
  · exact absurd heq (by decide)
  · exact not_mem_of_mem_pieces h (by decide) (by decide) piece hpiece hmem

theorem trim_text_ne_nil (v : ConstructedVersion) : trim v.text.toList ≠ [] := by
  have hdot : '.' ∈ v.text.toList := by
    unfold text
    dsimp only
    split <;> simp
  intro hnil
  exact absurd (trim_eq_nil_iff.mp hnil '.' hdot) (by decide)

theorem not_digits_boolLiteral (b : Bool) :
    ¬∀ x ∈ (Value.boolLiteral b).toList, isDecimalDigit x := by
  intro h
  cases b with
  | false => exact absurd (h 'F' (by decide)) (by decide)
  | true => exact absurd (h 'T' (by decide)) (by decide)

theorem component_eq_of_text {c d : Component} (h : c.text.toList = d.text.toList) : c = d := by
  have hne (n : Nat) (b : Bool) : (toString n).toList ≠ (Value.boolLiteral b).toList := by
    intro heq
    refine not_digits_boolLiteral b fun x hx => ?_
    exact isDecimalDigit_of_ascii (Version.isDigit_of_mem_toString (heq ▸ hx))
  cases c with
  | number m =>
    cases d with
    | number n => rw [Version.eq_of_toString h]
    | truth b => exact absurd h (hne m b)
  | truth b =>
    cases d with
    | number n => exact absurd h.symm (hne n b)
    | truth b' => cases b <;> cases b' <;> first | rfl | exact absurd h (by decide)

theorem eq_of_text (hv : isQualifier v.qualifier.toList) (hw : isQualifier w.qualifier.toList)
    (h : v.text = w.text) : v = w := by
  have hpieces : v.pieces = w.pieces := by rw [← splitOnChar_text hv, h, splitOnChar_text hw]
  obtain ⟨major, minor, micro, qualifier⟩ := v
  obtain ⟨major', minor', micro', qualifier'⟩ := w
  obtain ⟨hmajor, hpieces⟩ := List.cons.inj hpieces
  obtain ⟨hminor, hpieces⟩ := List.cons.inj hpieces
  obtain ⟨hmicro, hpieces⟩ := List.cons.inj hpieces
  obtain rfl := component_eq_of_text hmajor
  obtain rfl := component_eq_of_text hminor
  obtain rfl := component_eq_of_text hmicro
  have hqualifier : qualifier = qualifier' := by
    by_cases hq : qualifier.isEmpty <;> by_cases hq' : qualifier'.isEmpty <;>
      simp [hq, hq'] at hpieces
    · rw [String.isEmpty_iff.mp hq, String.isEmpty_iff.mp hq']
    · exact String.toList_inj.mp hpieces
  rw [hqualifier]

theorem isPlain_toVersion (h : isQualifier v.qualifier.toList)
    (hending : v.qualifier.toList.getLast? ≠ some '\n') : v.toVersion.IsPlain := fun c hc =>
  (isQualifierChar_or_lineFeed h c hc).resolve_right fun hline => hending hline.2

theorem not_isBlank_of_mem_text (hplain : v.toVersion.IsPlain) :
    ∀ x ∈ v.text.toList, isBlank x = false := by
  intro x hx
  rw [toList_text] at hx
  obtain rfl | ⟨piece, hpiece, hx⟩ := Version.eq_dot_or_mem_of_mem_dotted hx
  · decide
  · refine Version.not_isBlank_of_isQualifierChar ?_
    obtain hpiece | hpiece := List.mem_append.mp hpiece
    · obtain ⟨c, -, rfl⟩ := List.mem_map.mp hpiece
      simp [Version.isQualifierChar, isAlphanum_of_mem_text hx]
    · split at hpiece
      · cases hpiece
      · exact hplain x (List.mem_singleton.mp hpiece ▸ hx)

theorem number_of_isLegible {c : Component} {k : Nat} (h : IsLegible c.text.toList k) :
    ∃ n, c = .number n ∧ (toString n).length ≤ Numeral.maxDigits := by
  cases c with
  | number n => exact ⟨n, rfl, h.2⟩
  | truth b => exact absurd h.1.isDecimalDigit (not_digits_boolLiteral b)

/-- What a version is written as is read as that version exactly where it is steady. -/
theorem read_text_iff (h : isQualifier v.qualifier.toList) :
    Version.ofChars v.text.toList = .ok v.toVersion ↔ v.IsSteady := by
  constructor
  · intro hread
    have hplain : v.toVersion.IsPlain := Version.returns_ofChars _ hread
    have htrim := Version.trim_eq_self_of_forall (not_isBlank_of_mem_text hplain)
    have hne : trim v.text.toList ≠ [] := by
      intro hnil
      have hsplit := splitOnChar_text h
      rw [← htrim, hnil] at hsplit
      exact absurd (congrArg List.length hsplit) (by simp [splitOnChar, pieces, components])
    rw [Version.ofChars_of_ne_nil hne, htrim] at hread
    obtain ⟨ns, hns, -⟩ := Version.ofTrimmed_eq_ok_iff.mp hread
    rw [splitOnChar_text h] at hns
    obtain _ | ⟨hmajor, _ | ⟨hminor, _ | ⟨hmicro, -⟩⟩⟩ : List.Forall₂ IsLegible
      [v.major.text.toList, v.minor.text.toList, v.micro.text.toList] ns := hns
    refine ⟨?_, fun hlast => absurd (hplain _ (List.mem_of_getLast? hlast)) (by decide)⟩
    simp only [components, List.forall_mem_cons]
    exact ⟨number_of_isLegible hmajor, number_of_isLegible hminor, number_of_isLegible hmicro,
      List.forall_mem_nil _⟩
  · rintro ⟨hnumbers, hending⟩
    have hplain := isPlain_toVersion h hending
    obtain ⟨major, minor, micro, qualifier⟩ := v
    simp only [components, List.forall_mem_cons] at hnumbers
    obtain ⟨⟨m, rfl, hm⟩, ⟨n, rfl, hn⟩, ⟨k, rfl, hk⟩, -⟩ := hnumbers
    have hshort : Version.IsShort ⟨m, n, k, qualifier⟩ := by
      simp only [Version.IsShort, List.forall_mem_cons]
      exact ⟨hm, hn, hk, List.forall_mem_nil _⟩
    exact Version.ofChars_text (v := ⟨m, n, k, qualifier⟩) hplain hshort

theorem read_trim_iff (h : isQualifier v.qualifier.toList) :
    Version.ofValue (.text (String.ofList (trim v.text.toList))) = .ok v.toVersion ↔ v.IsSteady := by
  have hne := v.trim_text_ne_nil
  have htwice : trim (trim v.text.toList) ≠ [] := by rwa [trim_trim]
  have htrim : Version.ofChars (trim v.text.toList) = Version.ofChars v.text.toList := by
    rw [Version.ofChars_of_ne_nil hne, Version.ofChars_of_ne_nil htwice, trim_trim]
  have hvalue (s : String) : Version.ofValue (.text s) = Version.ofChars s.toList := rfl
  rw [hvalue, String.toList_ofList, htrim, read_text_iff h]

theorem isWritable_iff {n : Nat} :
    (Component.number n).value.isWritable ↔ (toString n).length ≤ Numeral.maxDigits := by
  have hchars : (toString n).toList = Nat.toDigits 10 n := by simp
  rw [← String.length_toList, hchars, Nat.length_toDigits_le_iff (by decide) (by decide)]
  simp [Component.value, Value.isWritable, intText?]

theorem text_of_written {s : String} (h : v.written = .ok s) : v.text = s := by
  unfold written at h
  split at h <;> cases h
  rfl

theorem IsSteady.written_eq (h : v.IsSteady) : v.written = .ok v.text := by
  refine if_pos (List.all_eq_true.mpr fun c hc => ?_)
  obtain ⟨n, rfl, hn⟩ := h.numbers c hc
  exact isWritable_iff.mpr hn

/-- A version put together from single fields is written as a text that is read as the same version,
exactly where its numbers are numbers short enough and its qualifier does not end in a line feed. Two
that are written alike are the same. -/
theorem read_written_iff (h : ofValues major minor micro qualifier = .ok v) :
    ((∃ s, v.written = .ok s ∧ Version.ofValue (.text s) = .ok v.toVersion) ↔ v.IsSteady) ∧
    ∀ {major' minor' micro' qualifier' : Value} {w : ConstructedVersion} {s : String},
      ofValues major' minor' micro' qualifier' = .ok w → v.written = .ok s → w.written = .ok s →
        v = w := by
  have hv := isQualifier_of_ofValues h
  refine ⟨?_, fun hw hs hs' => ?_⟩
  · constructor
    · rintro ⟨s, hs, hread⟩
      rw [← text_of_written hs] at hread
      exact (read_text_iff hv).mp hread
    · intro hsteady
      exact ⟨_, hsteady.written_eq, (read_text_iff hv).mpr hsteady⟩
  · exact eq_of_text hv (isQualifier_of_ofValues hw) ((text_of_written hs).trans (text_of_written hs').symm)

theorem read_written_iff_candidate :
    ofValues (.int 1) (.int 10) (.int 0) (.text "rc-1_b") = .ok ⟨.number 1, .number 10, .number 0, "rc-1_b"⟩ ∧
      ∃ s, written ⟨.number 1, .number 10, .number 0, "rc-1_b"⟩ = .ok s ∧
        Version.ofValue (.text s) = .ok ⟨1, 10, 0, "rc-1_b"⟩ := by
  have h : ofValues (.int 1) (.int 10) (.int 0) (.text "rc-1_b") =
      .ok ⟨.number 1, .number 10, .number 0, "rc-1_b"⟩ := rfl
  refine ⟨h, (read_written_iff h).1.mpr ⟨?_, by decide⟩⟩
  simp only [components, List.forall_mem_cons]
  exact ⟨⟨1, rfl, by decide⟩, ⟨10, rfl, by decide⟩, ⟨0, rfl, by decide⟩, List.forall_mem_nil _⟩

theorem not_read_as_written :
    ¬∀ (major minor micro qualifier : Value) (v : ConstructedVersion),
      ofValues major minor micro qualifier = .ok v →
        ∃ s, v.written = .ok s ∧ Version.ofValue (.text s) = .ok v.toVersion := by
  intro hall
  obtain ⟨s, hs, hread⟩ := hall (.int 1) (.int 0) (.int 0) (.text "a\n")
    ⟨.number 1, .number 0, .number 0, "a\n"⟩ rfl
  rw [← text_of_written hs] at hread
  have htrimmed : Version.ofValue (.text "1.0.0.a\n") = .ok ⟨1, 0, 0, "a"⟩ := rfl
  exact absurd (Except.ok.inj (htrimmed.symm.trans hread)) (by decide)

end ConstructedVersion

end Provision
