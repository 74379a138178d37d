import Provision.Proofs.Version.Grammar

namespace Provision

open Provision.Text

namespace VersionRange

def IsOpening (c : Char) : Prop := c = '[' ∨ c = '('

def IsClosing (c : Char) : Prop := c = ']' ∨ c = ')'

/-- The texts that spell upper bounds: a blank one spells none. -/
inductive SpellsUpper (N : List Char → Nat → Prop) : List Char → Option Version → Prop where
  | absent {upper} (h : trim upper = []) : SpellsUpper N upper none
  | present {upper v} (hne : trim upper ≠ []) (hv : Version.Spells N (trim upper) v) :
      SpellsUpper N upper (some v)

/-- The texts that spell ranges with numerals of a kind: a version, or two in brackets. -/
inductive Spells (N : List Char → Nat → Prop) : List Char → VersionRange → Prop where
  | blank : Spells N [] any
  | bare {raw v} (hne : raw ≠ []) (hv : Version.Spells N raw v) : Spells N raw { minimum := v }
  | bracketed {opening closing lower upper minimum maximum}
      (hopening : IsOpening opening) (hclosing : IsClosing closing)
      (hlower : ',' ∉ lower) (hupper : ',' ∉ upper) (hmin : Version.Spells N (trim lower) minimum)
      (hmax : SpellsUpper N upper maximum)
      (hordered : Ordered ⟨minimum, opening = '[', maximum, closing = ']'⟩) :
      Spells N (opening :: (lower ++ ',' :: upper ++ [closing]))
        ⟨minimum, opening = '[', maximum, closing = ']'⟩

variable {raw cs lower upper : List Char} {opening closing : Char} {r : VersionRange} {f : Failure}
  {minimum : Version}

/-! ### Between brackets -/

theorem checked_eq_ok_iff {q : VersionRange} : checked r = .ok q ↔ r.Ordered ∧ r = q := by
  unfold checked
  by_cases h : r.Ordered
  · rw [if_pos h, pure_eq_ok_iff]
    exact ⟨fun hq => ⟨h, hq⟩, And.right⟩
  · rw [if_neg h, throw_eq_ok_iff]
    exact ⟨False.elim, fun hq => h hq.1⟩

theorem spellsUpper_iff_of_blank {N : List Char → Nat → Prop} {maximum : Option Version}
    (h : upper.all isBlank) : SpellsUpper N upper maximum ↔ none = maximum := by
  have hnil : trim upper = [] := trim_eq_nil_iff.mpr (List.all_eq_true.mp h)
  constructor
  · rintro (_ | ⟨hne, -⟩)
    · rfl
    · exact absurd hnil hne
  · rintro rfl
    exact .absent hnil

theorem spellsUpper_iff_of_not_blank {N : List Char → Nat → Prop} {maximum : Option Version}
    (h : ¬upper.all isBlank) :
    SpellsUpper N upper maximum ↔ ∃ v, Version.Spells N (trim upper) v ∧ some v = maximum := by
  have hne : trim upper ≠ [] := fun hnil => h (List.all_eq_true.mpr (trim_eq_nil_iff.mp hnil))
  constructor
  · rintro (hnil | ⟨-, hv⟩)
    · exact absurd hnil hne
    · exact ⟨_, hv, rfl⟩
  · rintro ⟨v, hv, rfl⟩
    exact .present hne hv

theorem ofBracketed_eq_ok_iff (hlower : ',' ∉ lower) :
    ofBracketed raw opening closing (lower ++ ',' :: upper) = .ok r ↔
      ',' ∉ upper ∧ ∃ minimum, Version.Spells IsLegible (trim lower) minimum ∧
        ∃ maximum, SpellsUpper IsLegible upper maximum ∧
          Ordered ⟨minimum, opening = '[', maximum, closing = ']'⟩ ∧
          ⟨minimum, opening = '[', maximum, closing = ']'⟩ = r := by
  have hcut : cutAt (fun x => decide (x = ',')) (lower ++ ',' :: upper) = (lower, some upper) :=
    cutAt_append (fun x hx => decide_eq_false fun h : x = ',' => hlower (h ▸ hx)) (by simp)
  unfold ofBracketed
  simp only [hcut]
  rw [unless_eq_ok_iff, List.contains_iff_mem]
  simp only [bind_eq_ok_iff, Version.ofChars_eq_ok_iff]
  refine and_congr_right fun _ => exists_congr fun minimum => and_congr_right fun _ => ?_
  split
  case isTrue hblank =>
    simp only [spellsUpper_iff_of_blank hblank, bind_eq_ok_iff, pure_eq_ok_iff, checked_eq_ok_iff]
  case isFalse hblank =>
    simp only [spellsUpper_iff_of_not_blank hblank, map_eq_ok_iff, bind_eq_ok_iff,
      Version.ofChars_eq_ok_iff, checked_eq_ok_iff]

/-! ### Ranges -/

/-- A text is empty or a bare version, or it begins with a bracket and ends in one or not. -/
theorem cases_of_trimmed (raw : List Char) :
    raw = [] ∨ (∃ first rest, raw = first :: rest ∧ ¬IsOpening first) ∨
      (∃ opening rest, raw = opening :: rest ∧ IsOpening opening ∧ ∀ c ∈ rest.getLast?, ¬IsClosing c) ∨
      ∃ opening body closing, raw = opening :: (body ++ [closing]) ∧ IsOpening opening ∧ IsClosing closing := by
  cases raw with
  | nil => exact Or.inl rfl
  | cons first rest =>
    by_cases hopening : IsOpening first
    case neg => exact Or.inr (Or.inl ⟨first, rest, rfl, hopening⟩)
    case pos =>
      by_cases hclosing : ∀ c ∈ rest.getLast?, ¬IsClosing c
      case pos => exact Or.inr (Or.inr (Or.inl ⟨first, rest, rfl, hopening, hclosing⟩))
      case neg =>
        push Not at hclosing
        obtain ⟨closing, hlast, hclosing⟩ := hclosing
        obtain ⟨body, rfl⟩ := List.getLast?_eq_some_iff.mp hlast
        exact Or.inr (Or.inr (Or.inr ⟨first, body, closing, rfl, hopening, hclosing⟩))

theorem ofTrimmed_bare {first : Char} {rest : List Char} (h : ¬IsOpening first) :
    ofTrimmed (first :: rest) = do
      let minimum ← Version.ofChars (first :: rest)
      return { minimum := minimum } :=
  if_neg h

theorem ofTrimmed_unclosed {rest : List Char} (hopening : IsOpening opening)
    (hclosing : ∀ c ∈ rest.getLast?, ¬IsClosing c) :
    ofTrimmed (opening :: rest) = .error (.range (.text (String.ofList (opening :: rest)))) := by
  refine (if_pos hopening).trans ?_
  cases hlast : rest.getLast? with
  | none => rfl
  | some c => exact if_neg (hclosing c hlast)

theorem ofTrimmed_bracketed {body : List Char} (hopening : IsOpening opening)
    (hclosing : IsClosing closing) : ofTrimmed (opening :: (body ++ [closing])) =
      ofBracketed (opening :: (body ++ [closing])) opening closing body := by
  refine (if_pos hopening).trans ?_
  rw [List.getLast?_concat, List.dropLast_concat]
  exact if_pos hclosing

theorem not_isOpening_of_spells {first : Char} {rest : List Char} {v : Version}
    (h : Version.Spells IsLegible (first :: rest) v) : ¬IsOpening first := by
  obtain ⟨a, n, ha, hfront⟩ := h.exists_front (List.cons_ne_nil _ _)
  obtain ⟨c, a, rfl⟩ := List.exists_cons_of_ne_nil ha.1.1
  obtain ⟨rfl, -⟩ := List.cons_prefix_cons.mp hfront
  have hdigit := ha.1.isDecimalDigit c List.mem_cons_self
  rintro (rfl | rfl) <;> exact absurd hdigit (by decide)

theorem spells_of_ofTrimmed (hraw : trim raw = raw) (h : ofTrimmed raw = .ok r) :
    Spells IsLegible raw r := by
  obtain rfl | ⟨first, rest, rfl, hfirst⟩ | ⟨opening, rest, rfl, hopening, hlast⟩ |
    ⟨opening, body, closing, rfl, hopening, hclosing⟩ := cases_of_trimmed raw
  · cases h
    exact .blank
  · rw [ofTrimmed_bare hfirst] at h
    simp only [bind_eq_ok_iff, Version.ofChars_eq_ok_iff, pure_eq_ok_iff, hraw] at h
    obtain ⟨v, hv, rfl⟩ := h
    exact .bare (List.cons_ne_nil _ _) hv
  · rw [ofTrimmed_unclosed hopening hlast] at h
    cases h
  · rw [ofTrimmed_bracketed hopening hclosing] at h
    cases hcut : cutAt (fun x => decide (x = ',')) body with
    | mk lower after =>
      cases after with
      | none =>
        rw [ofBracketed, hcut] at h
        cases h
      | some upper =>
        obtain ⟨c, hc, rfl, hlower⟩ := eq_append_of_cutAt hcut
        obtain rfl := of_decide_eq_true hc
        have hcomma : ',' ∉ lower := fun hmem => of_decide_eq_false (hlower _ hmem) rfl
        obtain ⟨hupper, minimum, hmin, maximum, hmax, hordered, rfl⟩ := (ofBracketed_eq_ok_iff hcomma).mp h
        exact .bracketed hopening hclosing hcomma hupper hmin hmax hordered

theorem ofTrimmed_of_spells (hraw : trim raw = raw) (h : Spells IsLegible raw r) :
    ofTrimmed raw = .ok r := by
  cases h with
  | blank => rfl
  | bare hne hv =>
    obtain ⟨first, rest, rfl⟩ := List.exists_cons_of_ne_nil hne
    rw [ofTrimmed_bare (not_isOpening_of_spells hv), Version.ofChars_eq_ok_iff.mpr (by rwa [hraw])]
    rfl
  | bracketed hopening hclosing hlower hupper hmin hmax hordered =>
    rw [ofTrimmed_bracketed hopening hclosing]
    exact (ofBracketed_eq_ok_iff hlower).mpr ⟨hupper, _, hmin, _, hmax, hordered, rfl⟩

/-- A text is read as the range it spells, the blanks at its ends left aside. -/
theorem ofChars_eq_ok_iff : ofChars cs = .ok r ↔ Spells IsLegible (trim cs) r :=
  ⟨spells_of_ofTrimmed (trim_trim cs), ofTrimmed_of_spells (trim_trim cs)⟩

/-! ### Texts that spell no range -/

theorem of_checked_eq_error (h : checked r = .error f) : f.kind = .malformed := by
  unfold checked at h
  split at h <;> cases h
  rfl

/-- A text is malformed, or a part of it has digits that make up no number. -/
def AtFault (raw : List Char) (f : Failure) : Prop :=
  f.kind = .malformed ∨ f = .numeral ∧ ∃ part, part <:+: raw ∧ Version.Miscounts IsLegible (trim part)

theorem AtFault.of_isInfix {part : List Char} (h : AtFault part f) (hpart : part <:+: raw) :
    AtFault raw f :=
  h.imp_right (And.imp_right fun ⟨piece, hpiece, hf⟩ => ⟨piece, hpiece.trans hpart, hf⟩)

theorem atFault_of_version (h : Version.ofChars raw = .error f) : AtFault raw f :=
  (Version.of_ofChars_eq_error h).imp_right (And.imp_right fun hf => ⟨raw, List.infix_refl _, hf⟩)

theorem atFault_of_ofBracketed {body : List Char} (h : ofBracketed raw opening closing body = .error f) :
    AtFault body f := by
  unfold ofBracketed at h
  split at h
  case h_1 =>
    cases h
    exact Or.inl rfl
  case h_2 lower upper hcut =>
    obtain ⟨hlower, hupper⟩ := infix_of_cutAt hcut
    obtain rfl | h := of_unless_eq_error h
    · exact Or.inl rfl
    obtain h | ⟨minimum, -, h⟩ := of_bind_eq_error h
    · exact (atFault_of_version h).of_isInfix hlower
    dsimp only at h
    split at h
    case isTrue =>
      obtain h | ⟨_, -, h⟩ := of_bind_eq_error h
      · cases h
      · exact Or.inl (of_checked_eq_error h)
    case isFalse =>
      obtain h | ⟨_, -, h⟩ := of_bind_eq_error h
      · exact (atFault_of_version (of_map_eq_error h)).of_isInfix hupper
      · exact Or.inl (of_checked_eq_error h)

theorem atFault_of_ofTrimmed (h : ofTrimmed raw = .error f) : AtFault raw f := by
  obtain rfl | ⟨first, rest, rfl, hfirst⟩ | ⟨opening, rest, rfl, hopening, hlast⟩ |
    ⟨opening, body, closing, rfl, hopening, hclosing⟩ := cases_of_trimmed raw
  · cases h
  · rw [ofTrimmed_bare hfirst] at h
    obtain h | ⟨_, -, ⟨⟩⟩ := of_bind_eq_error h
    exact atFault_of_version h
  · rw [ofTrimmed_unclosed hopening hlast] at h
    cases h
    exact Or.inl rfl
  · rw [ofTrimmed_bracketed hopening hclosing] at h
    exact (atFault_of_ofBracketed h).of_isInfix ⟨[opening], [closing], rfl⟩

/-! ### ASCII texts -/

theorem Spells.imp {N M : List Char → Nat → Prop} (h : Spells N raw r)
    (hNM : ∀ a n, a.length ≤ raw.length → N a n → M a n) : Spells M raw r := by
  have hpart {part : List Char} {v : Version} (hlength : part.length ≤ raw.length)
      (hv : Version.Spells N part v) : Version.Spells M part v :=
    hv.imp fun a n ha => hNM a n (ha.trans hlength)
  cases h with
  | blank => exact .blank
  | bare hne hv => exact .bare hne (hpart le_rfl hv)
  | @bracketed opening closing lower upper minimum maximum hopening hclosing hlower hupper hmin hmax
      hordered =>
    have htrim (part : List Char) : (trim part).length ≤ part.length := (trim_isInfix part).length_le
    have hmin := hpart ((htrim lower).trans (by simp; omega)) hmin
    refine .bracketed hopening hclosing hlower hupper hmin ?_ hordered
    cases hmax with
    | absent hnil => exact .absent hnil
    | present hne hv => exact .present hne (hpart ((htrim upper).trans (by simp; omega)) hv)

/-- An ASCII text of fewer than 4300 characters is read exactly where it spells a range, the blanks at
its ends left aside, and any other is malformed. -/
theorem ofValue_text_of_ascii (s : String) (hascii : ∀ c ∈ s.toList, c.toNat < 0x80)
    (hlength : s.length < 4300) :
    (∀ r, ofValue (.text s) = .ok r ↔ Spells IsDecimal (trim s.toList) r) ∧
    ((¬∃ r, Spells IsDecimal (trim s.toList) r) →
      ∃ f, ofValue (.text s) = .error f ∧ f.kind = .malformed) := by
  have hshort : (trim s.toList).length < 4300 :=
    Nat.lt_of_le_of_lt (trim_isInfix s.toList).length_le hlength
  have hsame := Version.isLegible_iff_isDecimal hshort
  have hchars : ofValue (.text s) = ofChars s.toList := rfl
  have hread (r : VersionRange) : ofValue (.text s) = .ok r ↔ Spells IsDecimal (trim s.toList) r := by
    rw [hchars, ofChars_eq_ok_iff]
    exact ⟨fun hr => hr.imp fun a n ha => (hsame a n ha).mp,
      fun hr => hr.imp fun a n ha => (hsame a n ha).mpr⟩
  refine ⟨hread, fun hnone => ?_⟩
  cases hs : ofValue (.text s) with
  | ok r => exact absurd ⟨r, (hread r).mp hs⟩ hnone
  | error f =>
    refine ⟨f, rfl, (atFault_of_ofTrimmed hs).resolve_right ?_⟩
    rintro ⟨-, part, hpart, hmiscounts⟩
    have hwithin : trim part <:+: s.toList :=
      (trim_isInfix part).trans (hpart.trans (trim_isInfix s.toList))
    exact Version.not_miscounts_of_ascii (fun c hc => hascii c (hwithin.subset hc))
      (Nat.lt_of_le_of_lt hwithin.length_le hlength) hmiscounts

theorem ofValue_text_of_ascii_interval :
    ofValue (.text "\t( ,1.0.0.a ]") = .ok ⟨{}, false, some ⟨1, 0, 0, "a"⟩, true⟩ ∧
      ∃ f, ofValue (.text "[2.0,1.0]") = .error f ∧ f.kind = .malformed := by
  have hupper : Version.Spells IsDecimal (trim "1.0.0.a ".toList) ⟨1, 0, 0, String.ofList ['a']⟩ := by
    have hdigit (c : Char) (n : Nat) (h : digitValue? c = some n) : IsDecimal [c] n :=
      ⟨List.cons_ne_nil c [], [n], .cons h .nil, Nat.zero_add n⟩
    exact .qualified (hdigit '1' 1 rfl) (hdigit '0' 0 rfl) (hdigit '0' 0 rfl)
      (List.cons_ne_nil 'a' []) (List.all_eq_true.mp rfl)
  have hspells : Spells IsDecimal (trim "\t( ,1.0.0.a ]".toList)
      ⟨{}, false, some ⟨1, 0, 0, "a"⟩, true⟩ :=
    @Spells.bracketed IsDecimal '(' ']' [' '] "1.0.0.a ".toList _ _ (.inr rfl) (.inl rfl) (by decide)
      (by decide) .blank (.present (by decide) hupper) (by decide)
  have hascii : ∀ c ∈ "[2.0,1.0]".toList, c.toNat < 0x80 := by simp
  have hnone : ¬∃ r, Spells IsDecimal (trim "[2.0,1.0]".toList) r := by
    rintro ⟨r, hr⟩
    have hread := ((ofValue_text_of_ascii _ hascii (by decide)).1 r).mpr hr
    cases hread
  have hascii' : ∀ c ∈ "\t( ,1.0.0.a ]".toList, c.toNat < 0x80 := by simp
  exact ⟨((ofValue_text_of_ascii _ hascii' (by decide)).1 _).mpr hspells,
    (ofValue_text_of_ascii _ hascii (by decide)).2 hnone⟩

end VersionRange

end Provision
