import Provision.Json.Reader
import Provision.Proofs.Failure
import Mathlib.Data.List.TakeDrop
import Mathlib.Data.List.TakeWhile

namespace Provision.Json

open Provision.Text

variable {first : Option Nat} {cs rest : List Char} {es : List Element} {v : Value}

/-! ### Texts -/

theorem readText_char {c : Char} (hquote : c ≠ '"') (hcontrol : ¬(c.toNat < 0x20 ∨ c = '\\'))
    (cs : List Char) :
    readText first (c :: cs) = do
      let (es, rest) ← readText none cs
      return (pending first ++ .char c :: es, rest) := by
  rw [readText]
  · rw [if_neg hcontrol]
  · exact hquote
  · rintro a b c d rest rfl
    exact absurd (Or.inr rfl) hcontrol
  · rintro a rest rfl
    exact absurd (Or.inr rfl) hcontrol

/-- What stands in front adds to the elements in the same way, whatever follows it. -/
def Leads (first : Option Nat) (front : List Char) (first' : Option Nat)
    (f : List Element → List Element) : Prop :=
  ∀ cs, readText first (front ++ cs) = do
    let (es, rest) ← readText first' cs
    return (f es, rest)

theorem leads_escape {e c : Char} (h : escaped? e = some c) :
    Leads first ['\\', e] none fun es => pending first ++ .char c :: es := by
  intro cs
  simp only [List.cons_append, List.nil_append]
  rw [readText]
  · rw [h]
  · rintro a b c d rest rfl
    cases h

theorem leads_half {a b c d : Char} {n : Nat} (hn : codeUnit? a b c d = some n) (hhalf : isFirstHalf n) :
    Leads first ['\\', 'u', a, b, c, d] (some n) fun es => pending first ++ es := by
  intro cs
  simp only [List.cons_append, List.nil_append]
  rw [readText, hn]
  exact if_pos hhalf

theorem leads_code {a b c d : Char} {n : Nat} (hn : codeUnit? a b c d = some n)
    (hfirst : ¬isFirstHalf n) (hsecond : ¬isSecondHalf n) :
    Leads first ['\\', 'u', a, b, c, d] none fun es => pending first ++ .char (Char.ofNat n) :: es := by
  intro cs
  simp only [List.cons_append, List.nil_append]
  rw [readText, hn]
  simp only [hfirst, hsecond]
  rfl

theorem exists_leads_code (first : Option Nat) {a b c d : Char} {n : Nat}
    (hn : codeUnit? a b c d = some n) (hhalf : ¬isFirstHalf n) :
    ∃ f, Leads first ['\\', 'u', a, b, c, d] none f := by
  by_cases hsecond : isSecondHalf n
  · cases first with
    | some f =>
      refine ⟨fun es => .char (joinHalves f n) :: es, fun cs => ?_⟩
      simp only [List.cons_append, List.nil_append]
      rw [readText, hn]
      simp only [hhalf, hsecond]
      rfl
    | none =>
      refine ⟨fun es => .half n :: es, fun cs => ?_⟩
      simp only [List.cons_append, List.nil_append]
      rw [readText, hn]
      simp only [hhalf, hsecond]
      rfl
  · exact ⟨_, leads_code hn hhalf hsecond⟩

theorem Leads.exists_body {first' : Option Nat} {front : List Char} {f : List Element → List Element}
    (h : Leads first front first' f)
    (ih : ∀ {es rest}, readText first' cs = .ok (es, rest) →
      ∃ body, cs = body ++ rest ∧ ∀ rest, readText first' (body ++ rest) = .ok (es, rest))
    (hread : readText first (front ++ cs) = .ok (es, rest)) :
    ∃ body, front ++ cs = body ++ rest ∧ ∀ rest, readText first (body ++ rest) = .ok (es, rest) := by
  rw [h] at hread
  obtain ⟨⟨es, rest⟩, hbehind, heq⟩ := bind_eq_ok_iff.mp hread
  obtain ⟨rfl, rfl⟩ := Prod.mk.inj (Except.ok.inj heq)
  obtain ⟨body, rfl, hbody⟩ := ih hbehind
  refine ⟨front ++ body, (List.append_assoc ..).symm, fun rest => ?_⟩
  rw [List.append_assoc, h, hbody]
  rfl

theorem exists_body (h : readText first cs = .ok (es, rest)) :
    ∃ body, cs = body ++ rest ∧ ∀ rest, readText first (body ++ rest) = .ok (es, rest) := by
  fun_induction readText first cs generalizing es rest
  case case1 | case3 | case6 | case8 => cases h
  case case2 first cs =>
    obtain ⟨rfl, rfl⟩ := Prod.mk.inj (Except.ok.inj h)
    exact ⟨['"'], rfl, fun _ => rfl⟩
  case case4 first a b c d cs n hn hhalf ih =>
    have hleads : Leads first _ _ _ := leads_half hn hhalf
    exact hleads.exists_body ih ((hleads cs).trans h)
  case case5 first a b c d cs n hn hhalf ih =>
    obtain ⟨f, hleads⟩ := exists_leads_code first hn hhalf
    refine hleads.exists_body ih ?_
    simp only [List.cons_append, List.nil_append]
    rw [readText, hn]
    dsimp only
    rw [if_neg hhalf]
    exact h
  case case7 first e cs _ c he ih =>
    have hleads : Leads first _ _ _ := leads_escape he
    exact hleads.exists_body ih ((hleads cs).trans h)
  case case9 first c cs hquote _ _ _ hcontrol ih =>
    have hleads : Leads first [c] none fun es => pending first ++ .char c :: es :=
      readText_char hquote hcontrol
    exact hleads.exists_body ih ((hleads cs).trans h)

/-! ### Numbers -/

def isNumeral (c : Char) : Bool :=
  c.isDigit || c = '.' || c = 'e' || c = 'E' || c = '+' || c = '-'

structure Cuts (parts : List Char × List Char) (cs : List Char) : Prop where
  append : parts.1 ++ parts.2 = cs
  numeral : ∀ c ∈ parts.1, isNumeral c

theorem cuts_digitSpan (cs : List Char) : Cuts (digitSpan cs) cs := by
  rw [digitSpan, List.span_eq_takeWhile_dropWhile]
  refine ⟨List.takeWhile_append_dropWhile, fun c hc => ?_⟩
  simp [isNumeral, List.mem_takeWhile_imp hc]

theorem cuts_nil (cs : List Char) : Cuts ([], cs) cs :=
  ⟨rfl, nofun⟩

theorem Cuts.trans {ds es rest rest' : List Char} (h : Cuts (ds, rest) cs) (h' : Cuts (es, rest') rest) :
    Cuts (ds ++ es, rest') cs where
  append := by
    rw [← h.append, ← h'.append]
    exact List.append_assoc ds es rest'
  numeral := List.forall_mem_append.mpr ⟨h.numeral, h'.numeral⟩

theorem Cuts.cons {ds rest : List Char} {c : Char} (h : Cuts (ds, rest) cs) (hc : isNumeral c) :
    Cuts (c :: ds, rest) (c :: cs) :=
  ⟨congrArg (List.cons c) h.append, List.forall_mem_cons.mpr ⟨hc, h.numeral⟩⟩

theorem cuts_wholeSpan (cs : List Char) : Cuts (wholeSpan cs) cs := by
  unfold wholeSpan
  split
  · exact (cuts_nil _).cons (by decide)
  · exact cuts_digitSpan cs

theorem cuts_fractionSpan (cs : List Char) : Cuts (fractionSpan cs) cs := by
  unfold fractionSpan
  split
  case h_1 rest =>
    have hdigits := cuts_digitSpan rest
    split
    · exact cuts_nil _
    case h_2 ds rest' _ heq =>
      rw [heq] at hdigits
      exact hdigits.cons (by decide)
  case h_2 => exact cuts_nil cs

theorem cuts_exponentSign (cs : List Char) : Cuts (exponentSign cs) cs := by
  unfold exponentSign
  split
  · exact (cuts_nil _).cons (by decide)
  · exact (cuts_nil _).cons (by decide)
  · exact cuts_nil _

theorem cuts_exponentSpan (cs : List Char) : Cuts (exponentSpan cs) cs := by
  unfold exponentSpan
  split
  case h_2 => exact cuts_nil _
  case h_1 c rest =>
    split
    case isFalse => exact cuts_nil _
    case isTrue hc =>
      have hsign : Cuts (exponentSign rest) rest := cuts_exponentSign rest
      have hdigits := cuts_digitSpan (exponentSign rest).2
      dsimp only
      split
      · exact cuts_nil _
      case h_2 ds rest' _ heq =>
        rw [heq] at hdigits
        refine (hsign.trans hdigits).cons ?_
        obtain rfl | rfl := hc <;> rfl

theorem wholeSpan_isDigit (cs : List Char) : ∀ c ∈ (wholeSpan cs).1, c.isDigit := by
  unfold wholeSpan
  split
  · exact List.forall_mem_singleton.mpr (by decide)
  · rw [digitSpan, List.span_eq_takeWhile_dropWhile]
    exact fun c hc => List.mem_takeWhile_imp hc

/-- A number is written with the numerals in front of the rest, of which the first one is a digit. It is an
integer if they all are digits, and else a text. -/
theorem of_readNumber {sign : List Char} (h : readNumber .asText sign cs = .ok (v, rest)) :
    ∃ d digits, Cuts (d :: digits, rest) cs ∧ d.isDigit ∧
      (((∀ c ∈ d :: digits, c.isDigit) ∧
          ∃ i, Numeral.int? 10 (sign ++ d :: digits) = some i ∧ v = .int i) ∨
        v = .text (String.ofList (sign ++ d :: digits))) := by
  unfold readNumber at h
  rcases hw : wholeSpan cs with ⟨_ | ⟨d, whole⟩, rest₁⟩
  case nil =>
    simp only [hw] at h
    cases h
  case cons =>
  rcases hf : fractionSpan rest₁ with ⟨fraction, rest₂⟩
  rcases he : exponentSpan rest₂ with ⟨exponent, rest₃⟩
  have hcuts : Cuts (d :: whole ++ fraction ++ exponent, rest₃) cs :=
    ((hw ▸ cuts_wholeSpan cs).trans (hf ▸ cuts_fractionSpan rest₁)).trans (he ▸ cuts_exponentSpan rest₂)
  have hdigits : ∀ c ∈ d :: whole, c.isDigit := by
    have hwhole := wholeSpan_isDigit cs
    rwa [hw] at hwhole
  have hwritten :
      sign ++ d :: whole ++ fraction ++ exponent = sign ++ (d :: whole ++ fraction ++ exponent) := by
    simp only [List.append_assoc]
  simp only [hw, hf, he, hwritten, List.isEmpty_cons] at h
  rw [if_neg Bool.false_ne_true] at h
  split at h
  case isTrue hempty =>
    split at h
    case h_1 i hi =>
      obtain ⟨rfl, rfl⟩ := Prod.mk.inj (Except.ok.inj h)
      refine ⟨d, whole ++ fraction ++ exponent, hcuts, hdigits d List.mem_cons_self, ?_⟩
      refine Or.inl ⟨?_, i, hi, rfl⟩
      rw [Bool.and_eq_true, List.isEmpty_iff, List.isEmpty_iff] at hempty
      rwa [hempty.1, hempty.2, List.append_nil, List.append_nil]
    case h_2 => cases h
  case isFalse =>
    obtain ⟨rfl, rfl⟩ := Prod.mk.inj (Except.ok.inj h)
    exact ⟨d, whole ++ fraction ++ exponent, hcuts, hdigits d List.mem_cons_self, Or.inr rfl⟩

end Provision.Json
