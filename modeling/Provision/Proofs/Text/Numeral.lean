import Mathlib.Data.List.Forall2
import Mathlib.Data.List.Infix
import Mathlib.Data.Option.Basic
import Provision.Text.Numeral

namespace Provision.Text

theorem trim_isInfix (cs : List Char) : trim cs <:+: cs := by
  have hend : dropEndWhile isBlank (cs.dropWhile isBlank) <+: cs.dropWhile isBlank := by
    rw [dropEndWhile, ← List.reverse_suffix, List.reverse_reverse]
    exact List.dropWhile_suffix _
  exact hend.isInfix.trans (List.dropWhile_suffix _).isInfix

theorem infix_of_mem_splitOnChar {sep : Char} {cs piece : List Char} (h : piece ∈ splitOnChar sep cs) :
    piece <:+: cs := by
  -- A first piece is also at the front, where the character before it is put.
  suffices hsuff : (∀ p ∈ splitOnChar sep cs, p <:+: cs) ∧
      ∀ p ∈ (splitOnChar sep cs).head?, p <+: cs from hsuff.1 piece h
  clear h piece
  induction cs with
  | nil => simp [splitOnChar]
  | cons c cs ih =>
    obtain ⟨hall, hhead⟩ := ih
    have hlater (p : List Char) (hp : p ∈ splitOnChar sep cs) : p <:+: c :: cs :=
      (hall p hp).trans (List.suffix_cons c cs).isInfix
    unfold splitOnChar
    split
    case isTrue => simpa using hlater
    case isFalse =>
      cases hs : splitOnChar sep cs with
      | nil => simp [List.IsPrefix.isInfix]
      | cons first rest =>
        rw [hs] at hhead hlater
        have hfront : c :: first <+: c :: cs := (List.prefix_cons_inj c).mpr (hhead first rfl)
        refine ⟨List.forall_mem_cons.mpr ⟨hfront.isInfix, fun p hp => ?_⟩, by simpa using hfront⟩
        exact hlater p (List.mem_cons_of_mem _ hp)

theorem infix_of_cutAt {p : Char → Bool} {cs before after : List Char}
    (h : cutAt p cs = (before, some after)) : before <:+: cs ∧ after <:+: cs := by
  unfold cutAt at h
  split at h
  · cases h
  · rename_i c rest hrest
    cases h
    refine ⟨(List.takeWhile_prefix _).isInfix, ?_⟩
    have hdropped : c :: after <:+ cs := hrest ▸ List.dropWhile_suffix _
    exact ((List.suffix_cons c after).trans hdropped).isInfix

def IsNumerate (cs : List Char) : Prop :=
  ∀ run, run <:+: cs → run ≠ [] → run.all isDigit → (Numeral.int? 10 run).isSome

theorem IsNumerate.of_isInfix {cs part : List Char} (h : IsNumerate cs) (hpart : part <:+: cs) :
    IsNumerate part :=
  fun run hrun => h run (hrun.trans hpart)

/-! ### Decimal digits -/

/-- A run of decimal digits, of any script, stands for a number. -/
def IsDecimal (cs : List Char) (n : Nat) : Prop :=
  cs ≠ [] ∧ ∃ ds, List.Forall₂ (fun c d => digitValue? c = some d) cs ds ∧
    Numeral.ofDigits 10 ds = n

/-- A run of decimal digits with no more of them than are read. -/
def IsLegible (cs : List Char) (n : Nat) : Prop :=
  IsDecimal cs n ∧ cs.length ≤ Numeral.maxDigits

theorem bounds_of_isDigit {c : Char} (h : c.isDigit) : 48 ≤ c.toNat ∧ c.toNat ≤ 57 := by
  simp only [Char.isDigit, Bool.and_eq_true, decide_eq_true_eq, ge_iff_le,
    UInt32.le_iff_toNat_le] at h
  exact h

theorem bounds_of_isAlpha {c : Char} (h : c.isAlpha) : 65 ≤ c.toNat ∧ c.toNat ≤ 122 := by
  obtain h | h := (Bool.or_eq_true _ _).mp h
  · obtain ⟨hfirst, hlast⟩ := of_decide_eq_true h
    have hlast := UInt32.le_iff_toNat_le.mp hlast
    exact ⟨UInt32.le_iff_toNat_le.mp hfirst, Nat.le_trans hlast (by decide)⟩
  · obtain ⟨hfirst, hlast⟩ := (Bool.and_eq_true _ _).mp h
    have hfirst := UInt32.le_iff_toNat_le.mp (of_decide_eq_true hfirst)
    exact ⟨Nat.le_trans (by decide) hfirst, UInt32.le_iff_toNat_le.mp (of_decide_eq_true hlast)⟩

theorem not_isBlank_of_isDecimalDigit {c : Char} (h : isDecimalDigit c) : isBlank c = false := by
  have hranges : ∀ first ∈ decimalZeros, first + 10 ≤ 0x80 ∨ 0x660 ≤ first ∧ first + 10 ≤ 0x1680 ∨
      0x1681 ≤ first ∧ first + 10 ≤ 0x2000 ∨ 0x3001 ≤ first := by decide
  unfold isDecimalDigit digitValue? at h
  unfold isBlank
  split at h
  case isTrue =>
    split at h
    case isTrue hdigit =>
      have hbounds := bounds_of_isDigit hdigit
      grind
    case isFalse => cases h
  case isFalse hhigh =>
    rw [Option.isSome_map, List.find?_isSome] at h
    obtain ⟨first, hfirst, hin⟩ := h
    have := hranges first hfirst
    grind

theorem isDigit_of_isDecimalDigit {c : Char} (h : isDecimalDigit c) : isDigit c := by
  rw [isDigit, h, Bool.true_or]

theorem digitValue?_of_ascii {c : Char} (h : c.isDigit) : digitValue? c = some (c.toNat - 48) := by
  have hlow : c.toNat < 0x80 := by
    have := bounds_of_isDigit h
    omega
  rw [digitValue?, if_pos hlow, if_pos h]

theorem isDecimalDigit_of_ascii {c : Char} (h : c.isDigit) : isDecimalDigit c := by
  rw [isDecimalDigit, digitValue?_of_ascii h, Option.isSome_some]

theorem isDigit_of_ascii {c : Char} (h : c.isDigit) : isDigit c :=
  isDigit_of_isDecimalDigit (isDecimalDigit_of_ascii h)

theorem isDecimalDigit_of_isDigit {c : Char} (hascii : c.toNat < 0x80) (h : isDigit c) :
    isDecimalDigit c := by
  have hranges : ∀ range ∈ symbolicDigitRanges, 0x80 ≤ range.1 := by decide
  obtain h | h := (Bool.or_eq_true _ _).mp h
  · exact h
  · obtain ⟨⟨first, last⟩, hrange, hin⟩ := List.any_eq_true.mp h
    have hhigh := hranges _ hrange
    simp only [Bool.and_eq_true, decide_eq_true_eq] at hin hhigh
    omega

theorem not_isBlank_of_isDigit {c : Char} (h : isDigit c) : isBlank c = false := by
  have hranges : ∀ range ∈ symbolicDigitRanges, 0xA1 ≤ range.1 ∧ range.2 < 0x1680 ∨
      0x1681 ≤ range.1 ∧ range.2 < 0x2000 ∨ 0x2060 ≤ range.1 ∧ range.2 < 0x3000 ∨
        0x3001 ≤ range.1 := by decide
  obtain h | h := (Bool.or_eq_true _ _).mp h
  · exact not_isBlank_of_isDecimalDigit h
  · obtain ⟨⟨first, last⟩, hrange, hin⟩ := List.any_eq_true.mp h
    have hclear := hranges _ hrange
    simp only [Bool.and_eq_true, decide_eq_true_eq] at hin hclear
    simp only [isBlank, Bool.or_eq_false_iff, Bool.and_eq_false_iff, decide_eq_false_iff_not,
      beq_eq_false_iff_ne]
    omega

theorem digitValue?_lt {c : Char} {d : Nat} (h : digitValue? c = some d) : d < 10 := by
  unfold digitValue? at h
  split at h
  case isTrue =>
    split at h
    case isTrue hdigit =>
      have hbounds := bounds_of_isDigit hdigit
      cases h
      omega
    case isFalse => cases h
  case isFalse =>
    obtain ⟨first, hfind, rfl⟩ := Option.map_eq_some_iff.mp h
    have hin := List.find?_some hfind
    simp only [Bool.and_eq_true, decide_eq_true_eq] at hin
    omega

theorem digits_lt {cs : List Char} {ds : List Nat}
    (h : List.Forall₂ (fun c d => digitValue? c = some d) cs ds) : ∀ d ∈ ds, d < 10 := by
  induction h with
  | nil => nofun
  | cons hd _ ih => exact List.forall_mem_cons.mpr ⟨digitValue?_lt hd, ih⟩

namespace Numeral

theorem ofDigits_lt {base : Nat} {ds : List Nat} (h : ∀ d ∈ ds, d < base) :
    ofDigits base ds < Nat.pow base ds.length := by
  -- Whatever is read already counts once more for every digit behind it.
  suffices hfold : ∀ acc, ds.foldl (fun n d => n * base + d) acc < (acc + 1) * base ^ ds.length by
    simpa [ofDigits] using hfold 0
  induction ds with
  | nil => simp
  | cons d ds ih =>
    intro acc
    obtain ⟨hd, hds⟩ := List.forall_mem_cons.mp h
    calc
      (d :: ds).foldl (fun n d => n * base + d) acc <
          (acc * base + d + 1) * base ^ ds.length := ih hds _
      _ ≤ ((acc + 1) * base) * base ^ ds.length := by
        refine Nat.mul_le_mul_right _ ?_
        rw [Nat.add_mul, Nat.one_mul]
        omega
      _ = (acc + 1) * base ^ (d :: ds).length := by
        rw [List.length_cons, Nat.pow_succ', Nat.mul_assoc]

theorem ofDigits_le {base base' : Nat} (h : base ≤ base') (ds : List Nat) :
    ofDigits base ds ≤ ofDigits base' ds := by
  suffices hfold : ∀ acc acc', acc ≤ acc' →
      ds.foldl (fun n d => n * base + d) acc ≤ ds.foldl (fun n d => n * base' + d) acc' from
    hfold 0 0 le_rfl
  induction ds with
  | nil => exact fun _ _ hacc => hacc
  | cons d ds ih => exact fun _ _ hacc => ih _ _ (Nat.add_le_add_right (Nat.mul_le_mul hacc h) d)

theorem digitIn_ten (c : Char) : digitIn 10 c = digitValue? c := by
  unfold digitIn
  cases h : digitValue? c with
  | some d => simp [Option.filter, digitValue?_lt h]
  | none =>
    dsimp only
    split
    · simp [Option.filter]
    · split <;> simp [Option.filter]

theorem digits?_eq_some_iff {base : Nat} {cs : List Char} {ds : List Nat} (hline : '_' ∉ cs) :
    digits? base cs = some ds ↔
      cs ≠ [] ∧ List.Forall₂ (fun c d => digitIn base c = some d) cs ds := by
  induction cs generalizing ds with
  | nil => simp [digits?]
  | cons c cs ih =>
    have hcs : '_' ∉ cs := List.not_mem_of_not_mem_cons hline
    cases cs with
    | nil => simp [digits?, List.forall₂_cons_left_iff, eq_comm]
    | cons c' cs =>
      rw [digits?]
      · simp only [Option.bind_eq_bind, Option.pure_def, Option.bind_eq_some_iff, ih hcs,
          Option.some.injEq, List.forall₂_cons_left_iff (a := c), ne_eq, List.cons_ne_nil,
          not_false_eq_true, true_and]
        constructor
        · rintro ⟨d, hd, ds, hds, rfl⟩
          exact ⟨d, ds, hd, hds, rfl⟩
        · rintro ⟨d, ds, hd, hds, rfl⟩
          exact ⟨d, hd, ds, hds, rfl⟩
      · exact List.cons_ne_nil _ _
      · intro rest heq
        exact hcs (heq ▸ List.mem_cons_self)

theorem sign_of_digits {cs : List Char} (h : ∀ c ∈ cs, isDigit c) : sign cs = (false, cs) := by
  unfold sign
  split
  · exact absurd (h '-' List.mem_cons_self) (by decide)
  · exact absurd (h '+' List.mem_cons_self) (by decide)
  · rfl

theorem dropMark_of_digits {base : Nat} {cs : List Char} (h : ∀ c ∈ cs, isDigit c) :
    dropMark base cs = cs := by
  unfold dropMark
  split
  case h_1 m rest =>
    have hm : isDigit m := h m (List.mem_cons_of_mem _ List.mem_cons_self)
    refine if_neg ?_
    rintro (⟨-, rfl | rfl⟩ | ⟨-, rfl | rfl⟩ | ⟨-, rfl | rfl⟩) <;> exact absurd hm (by decide)
  case h_2 => rfl

theorem body_of_digits {cs : List Char} (h : ∀ c ∈ cs, isDigit c) : body cs = cs := by
  have hmargin {cs : List Char} (h : ∀ c ∈ cs, isDigit c) : cs.dropWhile isMargin = cs := by
    cases cs with
    | nil => rfl
    | cons c cs =>
      have hc : isMargin c = false := by
        rw [isMargin, not_isBlank_of_isDigit (h c List.mem_cons_self), Bool.false_and]
      exact List.dropWhile_cons_of_neg (Bool.eq_false_iff.mp hc)
  have hreverse : ∀ c ∈ cs.reverse, isDigit c := fun c hc => h c (List.mem_reverse.mp hc)
  rw [body, trimWhile, dropEndWhile, hmargin h, hmargin hreverse, List.reverse_reverse]

/-- Digits make up the number that they stand for, where they stand for one that is read. -/
theorem int?_eq_some_iff {cs : List Char} {i : Int} (h : ∀ c ∈ cs, isDigit c) :
    int? 10 cs = some i ↔ ∃ n : Nat, IsLegible cs n ∧ (n : Int) = i := by
  have hline : '_' ∉ cs := fun hc => absurd (h _ hc) (by decide)
  have hguard (ds : List Nat) : (guard (isPowerOfTwo 10 || ds.length ≤ maxDigits) : Option Unit) =
      if ds.length ≤ maxDigits then some () else none := by
    simp [isPowerOfTwo, guard]
  rw [int?, body_of_digits h, sign_of_digits h]
  simp only [dropMark_of_digits h, hguard, Option.bind_eq_bind, Option.bind_eq_some_iff,
    digits?_eq_some_iff hline, digitIn_ten]
  constructor
  · rintro ⟨ds, ⟨hne, hds⟩, ⟨⟩, hlength, hi⟩
    refine ⟨_, ⟨⟨hne, ds, hds, rfl⟩, ?_⟩, by simpa using hi⟩
    rw [hds.length_eq]
    by_contra hlong
    rw [if_neg hlong] at hlength
    cases hlength
  · rintro ⟨n, ⟨⟨hne, ds, hds, rfl⟩, hlength⟩, rfl⟩
    exact ⟨ds, ⟨hne, hds⟩, (), if_pos (hds.length_eq ▸ hlength), by simp⟩

theorem int?_eight {cs : List Char} (hne : cs ≠ []) (h : ∀ c ∈ cs, '0' ≤ c ∧ c ≤ '7') :
    int? 8 cs = some (ofDigits 8 (cs.map fun c => c.toNat - 48) : Int) := by
  have hvalue {c : Char} (hc : '0' ≤ c ∧ c ≤ '7') : c.isDigit ∧ c.toNat - 48 < 8 := by
    have hlow : 48 ≤ c.toNat := UInt32.le_iff_toNat_le.mp hc.1
    have hhigh : c.toNat ≤ 55 := UInt32.le_iff_toNat_le.mp hc.2
    refine ⟨?_, by omega⟩
    rw [Char.isDigit, Bool.and_eq_true, decide_eq_true_eq, decide_eq_true_eq]
    exact ⟨hc.1, UInt32.le_iff_toNat_le.mpr (Nat.le_trans hhigh (by decide))⟩
  have hdigits : ∀ c ∈ cs, isDigit c := fun c hc => isDigit_of_ascii (hvalue (h c hc)).1
  have hline : '_' ∉ cs := fun hc => absurd (hdigits _ hc) (by decide)
  have hread : digits? 8 cs = some (cs.map fun c => c.toNat - 48) := by
    rw [digits?_eq_some_iff hline, List.forall₂_map_right_iff, List.forall₂_same]
    refine ⟨hne, fun c hc => ?_⟩
    obtain ⟨hdigit, hlt⟩ := hvalue (h c hc)
    simp [digitIn, digitValue?_of_ascii hdigit, Option.filter, hlt]
  rw [int?, body_of_digits hdigits, sign_of_digits hdigits]
  simp [dropMark_of_digits hdigits, hread, isPowerOfTwo]

theorem exists_digits {cs : List Char} (h : ∀ c ∈ cs, isDecimalDigit c) :
    ∃ ds, List.Forall₂ (fun c d => digitValue? c = some d) cs ds := by
  induction cs with
  | nil => exact ⟨[], .nil⟩
  | cons c cs ih =>
    obtain ⟨hc, hcs⟩ := List.forall_mem_cons.mp h
    obtain ⟨d, hd⟩ := Option.isSome_iff_exists.mp hc
    obtain ⟨ds, hds⟩ := ih hcs
    exact ⟨d :: ds, .cons hd hds⟩

/-- Decimal digits make up a number unless there are too many of them. -/
theorem isSome_int?_of_decimal {cs : List Char} (hne : cs ≠ []) (h : ∀ c ∈ cs, isDecimalDigit c)
    (hlength : cs.length ≤ maxDigits) : (int? 10 cs).isSome := by
  obtain ⟨ds, hds⟩ := exists_digits h
  have hint := (int?_eq_some_iff fun c hc => isDigit_of_isDecimalDigit (h c hc)).mpr
    ⟨_, ⟨⟨hne, ds, hds, rfl⟩, hlength⟩, rfl⟩
  rw [hint]
  rfl

end Numeral

theorem IsDecimal.isDecimalDigit {cs : List Char} {n : Nat} (h : IsDecimal cs n) :
    ∀ c ∈ cs, isDecimalDigit c := by
  obtain ⟨-, ds, hds, -⟩ := h
  clear n
  induction hds with
  | nil => nofun
  | cons hd _ ih => exact List.forall_mem_cons.mpr ⟨Option.isSome_iff_exists.mpr ⟨_, hd⟩, ih⟩

theorem IsDecimal.eq_ofDigits {cs : List Char} {n : Nat} (h : IsDecimal cs n)
    (hascii : ∀ c ∈ cs, c.isDigit) : n = Numeral.ofDigits 10 (cs.map fun c => c.toNat - 48) := by
  obtain ⟨-, ds, hds, rfl⟩ := h
  refine congrArg _ ?_
  induction hds with
  | nil => rfl
  | cons hd _ ih =>
    obtain ⟨hc, hcs⟩ := List.forall_mem_cons.mp hascii
    rw [digitValue?_of_ascii hc] at hd
    rw [List.map_cons, ← ih hcs, Option.some.inj hd]

theorem length_toString_le_iff {n k : Nat} (hk : 0 < k) :
    (toString n).length ≤ k ↔ n < Nat.pow 10 k := by
  have hchars : (toString n).toList = Nat.toDigits 10 n := by simp
  rw [← String.length_toList, hchars]
  exact Nat.length_toDigits_le_iff (by decide) hk

theorem IsLegible.length_toString {cs : List Char} {n : Nat} (h : IsLegible cs n) :
    (toString n).length ≤ Numeral.maxDigits := by
  obtain ⟨⟨hne, ds, hds, rfl⟩, hlength⟩ := h
  refine Nat.le_trans ?_ hlength
  rw [length_toString_le_iff (List.length_pos_iff.mpr hne), hds.length_eq]
  exact Numeral.ofDigits_lt (digits_lt hds)

theorem isNumerate_of_decimal {cs : List Char} (h : cs.all fun c => !isDigit c || isDecimalDigit c)
    (hlength : cs.length ≤ Numeral.maxDigits) : IsNumerate cs := by
  intro run hrun hne hdigits
  have hdecimal : ∀ c ∈ run, isDecimalDigit c := by
    intro c hc
    have hdigit : isDigit c := List.all_eq_true.mp hdigits c hc
    simpa [hdigit] using List.all_eq_true.mp h c (hrun.subset hc)
  exact Numeral.isSome_int?_of_decimal hne hdecimal (hrun.length_le.trans hlength)

theorem IsNumerate.cons {c : Char} {cs : List Char} (hc : isDigit c = false) (h : IsNumerate cs) :
    IsNumerate (c :: cs) := by
  intro run hrun hne hdigits
  obtain hbegins | hrun := List.infix_cons_iff.mp hrun
  · -- A run at the front would begin with the character that is no digit.
    obtain ⟨d, run, rfl⟩ := List.exists_cons_of_ne_nil hne
    obtain ⟨rfl, -⟩ := List.cons_prefix_cons.mp hbegins
    rw [List.all_cons, hc] at hdigits
    cases hdigits
  · exact h run hrun hne hdigits

theorem isNumerate_of_intText? {i : Int} {s : String} (h : intText? i = some s) :
    IsNumerate s.toList := by
  have hlength {n k : Nat} (hk : 0 < k) (hn : n < Nat.pow 10 k) : (Nat.toDigits 10 n).length ≤ k :=
    (Nat.length_toDigits_le_iff (by decide) hk).mpr hn
  have hdigits {n : Nat} (hn : n < Nat.pow 10 Numeral.maxDigits) : IsNumerate (toString n).toList := by
    have hchars : (toString n).toList = Nat.toDigits 10 n := by simp
    rw [hchars]
    refine isNumerate_of_decimal (List.all_eq_true.mpr fun c hc => ?_) ?_
    · have hc : c.isDigit := Nat.isDigit_of_mem_toDigits (by decide) (by decide) hc
      rw [isDecimalDigit_of_ascii hc, Bool.or_true]
    · exact hlength (by decide) hn
  unfold intText? at h
  split at h
  case isTrue hlt =>
    cases h
    cases i with
    | ofNat n => exact hdigits hlt
    | negSucc n =>
      have hsign : (toString (Int.negSucc n)).toList = '-' :: (toString (n + 1)).toList := by
        change ("-" ++ toString (n + 1)).toList = _
        rw [String.toList_append]
        rfl
      rw [hsign]
      exact (hdigits hlt).cons (by decide)
  case isFalse => cases h

end Provision.Text
