import Provision.Proofs.Failure
import Provision.Proofs.Text.Numeral
import Provision.Proofs.Text.Pieces

namespace Provision

open Provision.Text

variable {raw cs piece : List Char} {n : Nat} {v : Version} {f : Failure}

namespace Version

/-- The texts that spell versions with numerals of a kind. -/
inductive Spells (N : List Char → Nat → Prop) : List Char → Version → Prop where
  | blank : Spells N [] {}
  | major {a m} (ha : N a m) : Spells N a ⟨m, 0, 0, ""⟩
  | minor {a b m n} (ha : N a m) (hb : N b n) : Spells N (a ++ '.' :: b) ⟨m, n, 0, ""⟩
  | micro {a b c m n k} (ha : N a m) (hb : N b n) (hc : N c k) :
      Spells N (a ++ '.' :: (b ++ '.' :: c)) ⟨m, n, k, ""⟩
  | qualified {a b c q m n k} (ha : N a m) (hb : N b n) (hc : N c k) (hne : q ≠ [])
      (hq : ∀ x ∈ q, isQualifierChar x) :
      Spells N (a ++ '.' :: (b ++ '.' :: (c ++ '.' :: q))) ⟨m, n, k, String.ofList q⟩

def IsCounted (cs : List Char) : Prop :=
  cs ≠ [] ∧ ∀ c ∈ cs, isDigit c

/-- The first component that is no numeral of a kind consists of digits nevertheless. -/
def Miscounts (N : List Char → Nat → Prop) (raw : List Char) : Prop :=
  ∃ front piece back, splitOnChar '.' raw = front ++ piece :: back ∧ front.length < 3 ∧
    (∀ p ∈ front, ∃ n, N p n) ∧ IsCounted piece ∧ ¬∃ n, N piece n

/-! ### Numbers -/

theorem dot_not_mem_of_isDecimal (h : IsDecimal cs n) : '.' ∉ cs := fun hdot =>
  absurd (h.isDecimalDigit _ hdot) (by decide)

theorem isCounted_of_isLegible (h : IsLegible cs n) : IsCounted cs :=
  ⟨h.1.1, fun c hc => isDigit_of_isDecimalDigit (h.1.isDecimalDigit c hc)⟩

theorem number_of_not_isCounted (h : ¬IsCounted piece) :
    number raw piece = .error (.version (.text (String.ofList raw))) := by
  refine if_pos ?_
  by_contra hnot
  exact h (by simpa [IsCounted] using hnot)

theorem number_of_isCounted (h : IsCounted piece) :
    number raw piece = match Numeral.int? 10 piece with
      | some i => .ok i.toNat
      | none => .error .numeral := by
  obtain ⟨hne, hdigits⟩ := h
  refine if_neg ?_
  simpa using ⟨hne, hdigits⟩

theorem number_eq_ok_iff : number raw piece = .ok n ↔ IsLegible piece n := by
  by_cases h : IsCounted piece
  case neg =>
    rw [number_of_not_isCounted h]
    exact ⟨nofun, fun hn => absurd (isCounted_of_isLegible hn) h⟩
  case pos =>
    rw [number_of_isCounted h]
    constructor
    · intro hn
      split at hn
      case h_1 i hi =>
        cases hn
        obtain ⟨n, hn, rfl⟩ := (Numeral.int?_eq_some_iff h.2).mp hi
        exact hn
      case h_2 => cases hn
    · intro hn
      rw [(Numeral.int?_eq_some_iff h.2).mpr ⟨n, hn, rfl⟩]
      rfl

theorem number_eq_numeral_iff :
    number raw piece = .error .numeral ↔ IsCounted piece ∧ ¬∃ n, IsLegible piece n := by
  by_cases h : IsCounted piece
  case neg =>
    rw [number_of_not_isCounted h]
    exact ⟨nofun, fun hn => absurd hn.1 h⟩
  case pos =>
    have hlegible : (∃ n, IsLegible piece n) ↔ ∃ n, number raw piece = .ok n :=
      exists_congr fun _ => number_eq_ok_iff.symm
    rw [hlegible, number_of_isCounted h]
    cases Numeral.int? 10 piece with
    | none => exact ⟨fun _ => ⟨h, nofun⟩, fun _ => rfl⟩
    | some i => exact ⟨nofun, fun hn => absurd ⟨_, rfl⟩ hn.2⟩

/-- A component that is no number is at fault, or its digits make up none. -/
theorem of_number_eq_error (h : number raw piece = .error f) :
    f = .version (.text (String.ofList raw)) ∨ f = .numeral := by
  by_cases hcounted : IsCounted piece
  · rw [number_of_isCounted hcounted] at h
    split at h <;> cases h
    exact Or.inr rfl
  · rw [number_of_not_isCounted hcounted] at h
    cases h
    exact Or.inl rfl

/-! ### Versions -/

theorem ofTrimmed_eq_ok_iff : ofTrimmed raw = .ok v ↔
    ∃ ns, List.Forall₂ IsLegible ((splitOnChar '.' raw).take 3) ns ∧
      (3 < (splitOnChar '.' raw).length → dotted ((splitOnChar '.' raw).drop 3) ≠ []) ∧
      (∀ c ∈ dotted ((splitOnChar '.' raw).drop 3), isQualifierChar c) ∧
      v = ⟨ns.getD 0 0, ns.getD 1 0, ns.getD 2 0,
        String.ofList (dotted ((splitOnChar '.' raw).drop 3))⟩ := by
  have hnumbers {pieces : List (List Char)} {ns : List Nat} :
      pieces.mapM (number raw) = .ok ns ↔ List.Forall₂ IsLegible pieces ns := by
    simp only [mapM_eq_ok_iff, number_eq_ok_iff]
  simp only [ofTrimmed, bind_eq_ok_iff, hnumbers]
  refine exists_congr fun ns => and_congr_right fun _ => ?_
  rw [unless_eq_ok_iff, unless_eq_ok_iff, pure_eq_ok_iff, eq_comm (b := v)]
  simp

theorem spells_of_ofTrimmed (h : ofTrimmed raw = .ok v) : Spells IsLegible raw v := by
  obtain ⟨ns, hns, hlong, hchars, rfl⟩ := ofTrimmed_eq_ok_iff.mp h
  have hraw := dotted_splitOnChar raw
  have hpieces := splitOnChar_ne_nil '.' raw
  generalize splitOnChar '.' raw = pieces at *
  subst hraw
  -- The numbers are those of the first three pieces, as many as there are.
  obtain _ | ⟨a, _ | ⟨b, _ | ⟨c, rest⟩⟩⟩ := pieces
  · exact absurd rfl hpieces
  · obtain _ | ⟨hm, _ | _⟩ : List.Forall₂ IsLegible [a] ns := hns
    exact .major hm
  · obtain _ | ⟨hm, _ | ⟨hn, _ | _⟩⟩ : List.Forall₂ IsLegible [a, b] ns := hns
    exact .minor hm hn
  · obtain _ | ⟨hm, _ | ⟨hn, _ | ⟨hk, _ | _⟩⟩⟩ : List.Forall₂ IsLegible [a, b, c] ns := hns
    cases rest with
    | nil => exact .micro hm hn hk
    | cons q rest => exact .qualified hm hn hk (hlong (by simp)) hchars

theorem ofTrimmed_of_spells (h : Spells IsLegible raw v) (hraw : raw ≠ []) :
    ofTrimmed raw = .ok v := by
  have hdot {q : List Char} (hq : ∀ c ∈ q, isQualifierChar c) : '.' ∉ q := fun hdot =>
    absurd (hq _ hdot) (by decide)
  rw [ofTrimmed_eq_ok_iff]
  cases h with
  | blank => exact absurd rfl hraw
  | major ha =>
    rw [splitOnChar_of_not_mem (dot_not_mem_of_isDecimal ha.1)]
    exact ⟨_, .cons ha .nil, by simp, nofun, rfl⟩
  | minor ha hb =>
    rw [splitOnChar_append (dot_not_mem_of_isDecimal ha.1),
      splitOnChar_of_not_mem (dot_not_mem_of_isDecimal hb.1)]
    exact ⟨_, .cons ha (.cons hb .nil), by simp, nofun, rfl⟩
  | micro ha hb hc =>
    rw [splitOnChar_append (dot_not_mem_of_isDecimal ha.1),
      splitOnChar_append (dot_not_mem_of_isDecimal hb.1),
      splitOnChar_of_not_mem (dot_not_mem_of_isDecimal hc.1)]
    exact ⟨_, .cons ha (.cons hb (.cons hc .nil)), by simp, nofun, rfl⟩
  | qualified ha hb hc hne hq =>
    rw [splitOnChar_append (dot_not_mem_of_isDecimal ha.1),
      splitOnChar_append (dot_not_mem_of_isDecimal hb.1),
      splitOnChar_append (dot_not_mem_of_isDecimal hc.1), splitOnChar_of_not_mem (hdot hq)]
    exact ⟨_, .cons ha (.cons hb (.cons hc .nil)), fun _ => hne, hq, rfl⟩

theorem Spells.exists_first {N : List Char → Nat → Prop} (h : Spells N cs v) (hne : cs ≠ []) :
    ∃ a n rest, N a n ∧ cs = a ++ rest ∧
      (rest = [] ∧ v = ⟨n, 0, 0, ""⟩ ∨ rest.head? = some '.') := by
  cases h with
  | blank => exact absurd rfl hne
  | major ha => exact ⟨_, _, [], ha, (List.append_nil _).symm, Or.inl ⟨rfl, rfl⟩⟩
  | minor ha | micro ha | qualified ha => exact ⟨_, _, _, ha, rfl, Or.inr rfl⟩

theorem Spells.exists_front {N : List Char → Nat → Prop} (h : Spells N cs v) (hne : cs ≠ []) :
    ∃ a n, N a n ∧ a <+: cs := by
  obtain ⟨a, n, rest, ha, rfl, -⟩ := h.exists_first hne
  exact ⟨a, n, ha, List.prefix_append a rest⟩

theorem Spells.eq_default (h : Spells IsLegible cs v) (hcs : cs = []) : v = {} := by
  cases h with
  | blank => rfl
  | major ha => exact absurd hcs ha.1.1
  | minor | micro | qualified => simp at hcs

theorem ofChars_eq_ok_iff : ofChars cs = .ok v ↔ Spells IsLegible (trim cs) v := by
  unfold ofChars
  dsimp only
  by_cases hne : trim cs = []
  · rw [hne]
    constructor
    · rintro ⟨⟩
      exact .blank
    · intro h
      rw [h.eq_default rfl]
      rfl
  · rw [if_neg (by simpa using hne)]
    exact ⟨spells_of_ofTrimmed, fun h => ofTrimmed_of_spells h hne⟩

/-! ### Texts that spell no version -/

theorem take_eq_append_cons_iff {front : List (List Char)} {k : Nat}
    {pieces : List (List Char)} :
    (∃ back, pieces.take k = front ++ piece :: back) ↔
      front.length < k ∧ ∃ back, pieces = front ++ piece :: back := by
  constructor
  · rintro ⟨back, h⟩
    have hlength := congrArg List.length h
    refine ⟨?_, back ++ pieces.drop k, ?_⟩
    · simp only [List.length_take, List.length_append, List.length_cons] at hlength
      omega
    · rw [← List.cons_append, ← List.append_assoc, ← h, List.take_append_drop]
  · rintro ⟨hlength, back, rfl⟩
    obtain ⟨j, rfl⟩ := Nat.exists_eq_add_of_lt hlength
    refine ⟨back.take j, ?_⟩
    rw [Nat.add_assoc, List.take_length_add_append, List.take_succ_cons]

theorem miscounts_iff_of_mapM : Miscounts IsLegible raw ↔
    ((splitOnChar '.' raw).take 3).mapM (number raw) = .error .numeral := by
  simp only [mapM_eq_error_iff, number_eq_ok_iff, number_eq_numeral_iff, Miscounts]
  constructor
  · rintro ⟨front, piece, back, hsplit, hlength, hfront, hpiece⟩
    obtain ⟨back, htake⟩ := take_eq_append_cons_iff.mpr ⟨hlength, back, hsplit⟩
    exact ⟨front, piece, back, htake, hfront, hpiece⟩
  · rintro ⟨front, piece, back, htake, hfront, hpiece⟩
    obtain ⟨hlength, back, hsplit⟩ := take_eq_append_cons_iff.mp ⟨back, htake⟩
    exact ⟨front, piece, back, hsplit, hlength, hfront, hpiece⟩

/-- A text that spells no version is at fault, or its digits make up no numbers. -/
theorem of_ofTrimmed_eq_error (h : ofTrimmed raw = .error f) :
    f.kind = .malformed ∨ f = .numeral ∧ Miscounts IsLegible raw := by
  unfold ofTrimmed at h
  obtain h | ⟨ns, -, h⟩ := of_bind_eq_error h
  · obtain ⟨-, piece, -, -, -, hpiece⟩ := mapM_eq_error_iff.mp h
    obtain rfl | rfl := of_number_eq_error hpiece
    · exact Or.inl rfl
    · exact Or.inr ⟨rfl, miscounts_iff_of_mapM.mpr h⟩
  · obtain rfl | h := of_unless_eq_error h
    · exact Or.inl rfl
    · obtain rfl | h := of_unless_eq_error h
      · exact Or.inl rfl
      · cases h

theorem ofTrimmed_of_miscounts (h : Miscounts IsLegible raw) : ofTrimmed raw = .error .numeral := by
  unfold ofTrimmed
  dsimp only
  rw [miscounts_iff_of_mapM.mp h]
  rfl

theorem Miscounts.ne_nil {N : List Char → Nat → Prop} (h : Miscounts N raw) : raw ≠ [] := by
  rintro rfl
  obtain ⟨front, piece, back, hsplit, -, -, hpiece, -⟩ := h
  have hmem : piece ∈ splitOnChar '.' [] := hsplit ▸ List.mem_append_right _ List.mem_cons_self
  exact hpiece.1 (List.mem_singleton.mp hmem)

theorem ofChars_of_ne_nil (h : trim cs ≠ []) : ofChars cs = ofTrimmed (trim cs) :=
  if_neg (by simpa using h)

theorem of_ofChars_eq_error (h : ofChars cs = .error f) :
    f.kind = .malformed ∨ f = .numeral ∧ Miscounts IsLegible (trim cs) := by
  by_cases hne : trim cs = []
  · rw [ofChars, hne] at h
    cases h
  · rw [ofChars_of_ne_nil hne] at h
    exact of_ofTrimmed_eq_error h

theorem ofChars_of_miscounts (h : Miscounts IsLegible (trim cs)) : ofChars cs = .error .numeral := by
  rw [ofChars_of_ne_nil h.ne_nil]
  exact ofTrimmed_of_miscounts h

/-! ### Texts with no more characters than a numeral may have digits -/

theorem Spells.imp {N M : List Char → Nat → Prop} (h : Spells N cs v)
    (hNM : ∀ a n, a.length ≤ cs.length → N a n → M a n) : Spells M cs v := by
  cases h with
  | blank => exact .blank
  | major ha => exact .major (hNM _ _ (by simp) ha)
  | minor ha hb => exact .minor (hNM _ _ (by simp) ha) (hNM _ _ (by simp; omega) hb)
  | micro ha hb hc =>
    exact .micro (hNM _ _ (by simp) ha) (hNM _ _ (by simp; omega) hb) (hNM _ _ (by simp; omega) hc)
  | qualified ha hb hc hne hq =>
    exact .qualified (hNM _ _ (by simp) ha) (hNM _ _ (by simp; omega) hb)
      (hNM _ _ (by simp; omega) hc) hne hq

theorem miscounts_congr {N M : List Char → Nat → Prop}
    (hNM : ∀ a n, a.length ≤ raw.length → (N a n ↔ M a n)) : Miscounts N raw ↔ Miscounts M raw := by
  have hpiece {p} (hp : p ∈ splitOnChar '.' raw) (n : Nat) : N p n ↔ M p n :=
    hNM p n (infix_of_mem_splitOnChar hp).length_le
  refine exists_congr fun front => exists_congr fun piece => exists_congr fun back =>
    and_congr_right fun hsplit => and_congr_right fun _ => ?_
  rw [hsplit] at hpiece
  refine and_congr (forall₂_congr fun p hp => exists_congr ?_)
    (and_congr_right fun _ => not_congr (exists_congr ?_))
  · exact hpiece (List.mem_append_left _ hp)
  · exact hpiece (List.mem_append_right _ List.mem_cons_self)

theorem not_miscounts_of_ascii (hascii : ∀ c ∈ raw, c.toNat < 0x80) (hlength : raw.length < 4300) :
    ¬Miscounts IsLegible raw := by
  rintro ⟨front, piece, back, hsplit, -, -, ⟨hne, hdigits⟩, hnone⟩
  have hpiece : piece <:+: raw :=
    infix_of_mem_splitOnChar (hsplit ▸ List.mem_append_right _ List.mem_cons_self)
  have hdecimal : ∀ c ∈ piece, isDecimalDigit c := fun c hc =>
    isDecimalDigit_of_isDigit (hascii c (hpiece.subset hc)) (hdigits c hc)
  obtain ⟨ds, hds⟩ := Numeral.exists_digits hdecimal
  exact hnone ⟨_, ⟨hne, ds, hds, rfl⟩, Nat.le_of_lt (Nat.lt_of_le_of_lt hpiece.length_le hlength)⟩

theorem isLegible_iff_isDecimal {k : Nat} (hk : k < 4300) (a : List Char) (n : Nat)
    (ha : a.length ≤ k) : IsLegible a n ↔ IsDecimal a n :=
  ⟨And.left, fun h => ⟨h, Nat.le_of_lt (Nat.lt_of_le_of_lt ha hk)⟩⟩

/-- A text of fewer than 4300 characters is read exactly where it spells a version, the blanks at its
ends left aside. Any other is malformed, unless it has digits that no numeral admits where a number
has to be. -/
theorem ofValue_text_of_short (s : String) (h : s.length < 4300) :
    (∀ v, ofValue (.text s) = .ok v ↔ Spells IsDecimal (trim s.toList) v) ∧
    ((¬∃ v, Spells IsDecimal (trim s.toList) v) → ∃ f, ofValue (.text s) = .error f ∧
      (¬Miscounts IsDecimal (trim s.toList) ∧ f.kind = .malformed ∨
        Miscounts IsDecimal (trim s.toList) ∧ f.kind = .numeral)) := by
  have hlength : (trim s.toList).length < 4300 :=
    Nat.lt_of_le_of_lt (trim_isInfix s.toList).length_le h
  have hsame := isLegible_iff_isDecimal hlength
  have hchars : ofValue (.text s) = ofChars s.toList := rfl
  have hread (v : Version) : ofValue (.text s) = .ok v ↔ Spells IsDecimal (trim s.toList) v := by
    rw [hchars, ofChars_eq_ok_iff]
    exact ⟨fun hv => hv.imp fun a n ha => (hsame a n ha).mp,
      fun hv => hv.imp fun a n ha => (hsame a n ha).mpr⟩
  refine ⟨hread, fun hnone => ?_⟩
  cases hs : ofValue (.text s) with
  | ok v => exact absurd ⟨v, (hread v).mp hs⟩ hnone
  | error f =>
    refine ⟨f, rfl, ?_⟩
    rw [← miscounts_congr hsame]
    by_cases hmiscounts : Miscounts IsLegible (trim s.toList)
    · rw [hchars, ofChars_of_miscounts hmiscounts] at hs
      cases hs
      exact Or.inr ⟨hmiscounts, rfl⟩
    · exact Or.inl ⟨hmiscounts, (of_ofChars_eq_error hs).resolve_right fun hf => hmiscounts hf.2⟩

/-- Digits of any script are read, and what stands behind three numbers is the qualifier, which has to
be there if there is a dot for it. -/
theorem ofValue_text_of_short_indic :
    ofValue (.text " ٣.04.5.6\n") = .ok ⟨3, 4, 5, "6"⟩ ∧
      ∃ f, ofValue (.text "1.2.3.") = .error f ∧ f.kind = .malformed := by
  have hspells : Spells IsDecimal (trim " ٣.04.5.6\n".toList) ⟨3, 4, 5, String.ofList ['6']⟩ := by
    have hmajor : IsDecimal ['٣'] 3 := ⟨by decide, [3], .cons rfl .nil, rfl⟩
    have hminor : IsDecimal ['0', '4'] 4 := ⟨by decide, [0, 4], .cons rfl (.cons rfl .nil), rfl⟩
    have hmicro : IsDecimal ['5'] 5 := ⟨by decide, [5], .cons rfl .nil, rfl⟩
    exact .qualified hmajor hminor hmicro (List.cons_ne_nil '6' []) (List.all_eq_true.mp rfl)
  have hnone : ¬∃ v, Spells IsDecimal (trim "1.2.3.".toList) v := by
    rintro ⟨v, hv⟩
    have hread := ((ofValue_text_of_short "1.2.3." (by decide)).1 v).mpr hv
    cases hread
  refine ⟨((ofValue_text_of_short _ (by decide)).1 _).mpr hspells, ?_⟩
  obtain ⟨f, hf, ⟨-, hkind⟩ | ⟨-, hkind⟩⟩ := (ofValue_text_of_short "1.2.3." (by decide)).2 hnone
  · exact ⟨f, hf, hkind⟩
  · cases hf
    cases hkind

theorem not_malformed_of_superscript :
    ¬∀ s : String, s.length < 4300 → (¬∃ v, Spells IsDecimal (trim s.toList) v) →
      ∃ f, ofValue (.text s) = .error f ∧ f.kind = .malformed := by
  intro hall
  have hnone : ¬∃ v, Spells IsDecimal (trim "²".toList) v := by
    rintro ⟨v, hv⟩
    have hread : ofChars "²".toList = .ok v :=
      ofChars_eq_ok_iff.mpr (hv.imp fun a n ha => (isLegible_iff_isDecimal (by decide) a n ha).mpr)
    cases hread
  obtain ⟨f, hf, hkind⟩ := hall "²" (by decide) hnone
  cases hf
  cases hkind

end Version

end Provision
