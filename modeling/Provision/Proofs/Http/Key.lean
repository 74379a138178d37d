import Mathlib.Data.List.Induction
import Mathlib.Data.List.Sort
import Mathlib.Data.String.Basic
import Provision.Proofs.Text.Quoted
import Provision.Http.Client

namespace Provision.Http

open Provision.Text

theorem lookup_eq_some_iff_mem {α β : Type} [DecidableEq α] {es : List (α × β)}
    (hnodup : (es.map Prod.fst).Nodup) (a : α) (b : β) : es.lookup a = some b ↔ (a, b) ∈ es := by
  induction es with
  | nil => simp
  | cons e es ih =>
    obtain ⟨a', b'⟩ := e
    obtain ⟨hnew, hrest⟩ := List.nodup_cons.mp hnodup
    rw [List.mem_cons, Prod.mk.injEq, ← ih hrest]
    by_cases hkey : a = a'
    · subst hkey
      have hother : es.lookup a ≠ some b := by
        intro hfound
        have hmem := (ih hrest).mp hfound
        exact hnew (List.mem_map.mpr ⟨(a, b), hmem, rfl⟩)
      rw [List.lookup_cons_self, Option.some.injEq]
      simp [hother, eq_comm]
    · rw [List.lookup_cons, beq_false_of_ne hkey]
      simp [hkey]

theorem isUpTo_trans {ks ms ns : List Nat} (h : isUpTo ks ms) (h' : isUpTo ms ns) : isUpTo ks ns := by
  induction ks generalizing ms ns with
  | nil => rfl
  | cons k ks ih =>
    obtain _ | ⟨m, ms⟩ := ms
    · cases h
    obtain _ | ⟨n, ns⟩ := ns
    · cases h'
    simp only [isUpTo, Bool.or_eq_true, Bool.and_eq_true, decide_eq_true_eq] at h h' ⊢
    obtain hkm | ⟨rfl, hks⟩ := h <;> obtain hmn | ⟨rfl, hms⟩ := h'
    · exact Or.inl (hkm.trans hmn)
    · exact Or.inl hkm
    · exact Or.inl hmn
    · exact Or.inr ⟨rfl, ih hks hms⟩

theorem isUpTo_total (ms ns : List Nat) : isUpTo ms ns ∨ isUpTo ns ms := by
  induction ms generalizing ns with
  | nil => exact Or.inl rfl
  | cons m ms ih =>
    obtain _ | ⟨n, ns⟩ := ns
    · exact Or.inr rfl
    simp only [isUpTo, Bool.or_eq_true, Bool.and_eq_true, decide_eq_true_eq]
    obtain hlt | rfl | hgt := Nat.lt_trichotomy m n
    · exact Or.inl (Or.inl hlt)
    · exact (ih ns).imp (fun h => Or.inr ⟨rfl, h⟩) fun h => Or.inr ⟨rfl, h⟩
    · exact Or.inr (Or.inl hgt)

theorem isUpTo_antisymm {ms ns : List Nat} (h : isUpTo ms ns) (h' : isUpTo ns ms) : ms = ns := by
  induction ms generalizing ns with
  | nil =>
    obtain _ | ⟨n, ns⟩ := ns
    · rfl
    · cases h'
  | cons m ms ih =>
    obtain _ | ⟨n, ns⟩ := ns
    · cases h
    simp only [isUpTo, Bool.or_eq_true, Bool.and_eq_true, decide_eq_true_eq] at h h'
    obtain hlt | ⟨rfl, hms⟩ := h <;> obtain hgt | ⟨heq, hns⟩ := h'
    · exact absurd hlt (Nat.lt_asymm hgt)
    · exact absurd hlt (heq ▸ Nat.lt_irrefl _)
    · exact absurd hgt (Nat.lt_irrefl _)
    · rw [ih hms hns]

/-- Headers that map texts to texts, in the order in which they are given. -/
structure HeaderMap where
  entries : List (String × String) := []
  names : (entries.map Prod.fst).Nodup := by decide
  proper : ∀ e ∈ entries, IsProper e.1 ∧ IsProper e.2

namespace HeaderMap

variable {h h' : HeaderMap}

def headers (h : HeaderMap) : Headers :=
  h.entries.map fun e => (e.1, .text e.2)

def Same (h h' : HeaderMap) : Prop :=
  h.entries.Perm h'.entries

instance : Decidable (Same h h') :=
  inferInstanceAs (Decidable (h.entries.Perm h'.entries))

def value? (h : HeaderMap) (name : String) : Option String :=
  h.entries.lookup name

theorem value?_eq_some_iff {name value : String} :
    h.value? name = some value ↔ (name, value) ∈ h.entries :=
  lookup_eq_some_iff_mem h.names name value

theorem same_iff_value? : h.Same h' ↔ ∀ name, h.value? name = h'.value? name := by
  have hnodup (g : HeaderMap) : g.entries.Nodup := List.Nodup.of_map Prod.fst g.names
  constructor
  · intro hsame name
    apply Option.ext
    intro value
    rw [value?_eq_some_iff, value?_eq_some_iff]
    exact hsame.mem_iff
  · intro hvalues
    apply (List.perm_ext_iff_of_nodup (hnodup h) (hnodup h')).mpr
    rintro ⟨name, value⟩
    rw [← value?_eq_some_iff, ← value?_eq_some_iff, hvalues name]

theorem proper_nil : ∀ e ∈ ([] : List (String × String)), IsProper e.1 ∧ IsProper e.2 :=
  List.forall_mem_nil _

def empty : HeaderMap := ⟨[], List.nodup_nil, proper_nil⟩

def sorted (h : HeaderMap) : List (String × String) :=
  h.entries.mergeSort fun a b => isUpTo (codes a.1) (codes b.1)

theorem sorted_perm (h : HeaderMap) : h.sorted.Perm h.entries :=
  List.mergeSort_perm h.entries _

theorem proper_of_mem_sorted {e : String × String} (he : e ∈ h.sorted) :
    IsProper e.1 ∧ IsProper e.2 :=
  h.proper e (h.sorted_perm.mem_iff.mp he)

/-- Their names being distinct, the entries of a map have one order. -/
theorem sorted_eq_iff : h.sorted = h'.sorted ↔ h.Same h' := by
  constructor
  · intro hsorted
    exact (h.sorted_perm.symm.trans (.of_eq hsorted)).trans h'.sorted_perm
  · intro hsame
    have hperm : h.sorted.Perm h'.sorted :=
      (h.sorted_perm.trans hsame).trans h'.sorted_perm.symm
    have hordered (g : HeaderMap) :
        g.sorted.Pairwise fun a b => isUpTo (codes a.1) (codes b.1) :=
      @List.pairwise_mergeSort _ (fun a b => isUpTo (codes a.1) (codes b.1))
        (fun _ _ _ => isUpTo_trans)
        (fun a b => Bool.or_eq_true_iff.mpr (isUpTo_total (codes a.1) (codes b.1))) g.entries
    refine hperm.eq_of_pairwise (fun a b ha hb hab hba => ?_) (hordered h) (hordered h')
    have hcodes : codes a.1 = codes b.1 := isUpTo_antisymm hab hba
    exact List.inj_on_of_nodup_map h.names (h.sorted_perm.mem_iff.mp ha)
      (hsame.mem_iff.mpr (h'.sorted_perm.mem_iff.mp hb))
      ((proper_of_mem_sorted ha).1.eq_of_codes (proper_of_mem_sorted hb).1 hcodes)

end HeaderMap

/-! ### What keys are written as -/

def entryText (e : String × String) : List Char :=
  ['('] ++ Quoted.encode e.1.toList ++ [',', ' '] ++ Quoted.encode e.2.toList ++ [')']

def frontText (es : List (String × String)) : List Char :=
  ['['] ++ es.flatMap fun e => entryText e ++ [',', ' ']

theorem frontText_concat (es : List (String × String)) (e : String × String) :
    frontText (es ++ [e]) = frontText es ++ entryText e ++ [',', ' '] := by
  simp [frontText]

theorem toList_join_concat (ss : List String) (s : String) :
    (join ", " (ss ++ [s])).toList = (ss.flatMap fun t => t.toList ++ [',', ' ']) ++ s.toList := by
  induction ss with
  | nil => rfl
  | cons t ss ih =>
    have hjoin : join ", " (t :: ss ++ [s]) = t ++ ", " ++ join ", " (ss ++ [s]) := by
      cases ss <;> rfl
    have hcomma : ", ".toList = [',', ' '] := rfl
    rw [hjoin, String.toList_append, String.toList_append, ih, hcomma, List.flatMap_cons,
      List.append_assoc, List.append_assoc, List.append_assoc]

theorem getLast?_append_of_some (x : List Char) {y : List Char} {c : Char}
    (h : y.getLast? = some c) : (x ++ y).getLast? = some c := by
  rw [List.getLast?_append, h, Option.some_or]

theorem append_ne_append (x y : List Char) {z w : List Char} {c d : Char} (hz : z.getLast? = some c)
    (hw : w.getLast? = some d) (hne : c ≠ d) : x ++ z ≠ y ++ w := by
  intro heq
  have hlast := congrArg List.getLast? heq
  rw [getLast?_append_of_some x hz, getLast?_append_of_some y hw] at hlast
  exact hne (Option.some.inj hlast)

theorem append_entryText_inj {x y : List Char} {e f : String × String}
    (he : IsProper e.1 ∧ IsProper e.2) (hf : IsProper f.1 ∧ IsProper f.2)
    (h : x ++ entryText e = y ++ entryText f) : x = y ∧ e = f := by
  simp only [entryText, ← List.append_assoc] at h
  have hcomma (z : List Char) : (z ++ [',', ' ']).getLast? ≠ some '\\' := by
    rw [getLast?_append_of_some z rfl]
    decide
  have hparen (z : List Char) : (z ++ ['(']).getLast? ≠ some '\\' := by
    rw [getLast?_append_of_some z rfl]
    decide
  obtain ⟨hfront, hvalue⟩ := Quoted.append_encode_inj he.2 hf.2 (hcomma _) (hcomma _)
    (List.append_cancel_right h)
  obtain ⟨hopen, hname⟩ := Quoted.append_encode_inj he.1 hf.1 (hparen x) (hparen y)
    (List.append_cancel_right hfront)
  exact ⟨List.append_cancel_right hopen, Prod.ext hname hvalue⟩

/-- Entries are read off the end one by one, up to the bracket before the first. -/
theorem append_frontText_inj {x y : List Char} {es fs : List (String × String)}
    (hes : ∀ e ∈ es, IsProper e.1 ∧ IsProper e.2) (hfs : ∀ f ∈ fs, IsProper f.1 ∧ IsProper f.2)
    (h : x ++ frontText es = y ++ frontText fs) : x = y ∧ es = fs := by
  -- Only the first entry has the bracket in front of it, so both lists come to their first together.
  have hbracket (z w : List Char) : z ++ frontText [] ≠ w ++ [',', ' '] :=
    append_ne_append z w rfl rfl (by decide)
  induction es using List.reverseRecOn generalizing fs with
  | nil =>
    obtain rfl | ⟨fs, f, rfl⟩ := fs.eq_nil_or_concat'
    · exact ⟨List.append_cancel_right h, rfl⟩
    · rw [frontText_concat, ← List.append_assoc] at h
      exact absurd h (hbracket x _)
  | append_singleton es e ih =>
    obtain rfl | ⟨fs, f, rfl⟩ := fs.eq_nil_or_concat'
    · rw [frontText_concat, ← List.append_assoc] at h
      exact absurd h.symm (hbracket y _)
    · simp only [frontText_concat, ← List.append_assoc] at h
      obtain ⟨hfront, rfl⟩ := append_entryText_inj (hes e (by simp)) (hfs f (by simp))
        (List.append_cancel_right h)
      obtain ⟨rfl, rfl⟩ := ih (fun e he => hes e (by simp [he])) (fun f hf => hfs f (by simp [hf]))
        hfront
      exact ⟨rfl, rfl⟩

theorem literals_eq_map (within : List Nat) (vs : List Value) :
    Value.literals within vs = vs.map (Value.literalWithin within) := by
  induction vs with
  | nil => rfl
  | cons v vs ih => rw [Value.literals, ih, List.map_cons]

theorem toList_literal_entry (e : String × String) :
    (Value.literalWithin [] (.pair (.text e.1) (.text e.2))).toList = entryText e := by
  simp [Value.literalWithin, entryText, quoted]

theorem toList_literal_entries (es : List (String × String)) (e : String × String) :
    (Value.list ((es ++ [e]).map fun f => .pair (.text f.1) (.text f.2))).literal.toList =
      frontText es ++ entryText e ++ [']'] := by
  have hlist (vs : List Value) :
      (Value.list vs).literal.toList =
        ['['] ++ (join ", " (vs.map (Value.literalWithin []))).toList ++ [']'] := by
    simp [Value.literal, Value.literalWithin, literals_eq_map]
  rw [hlist, List.map_map, List.map_append, List.map_singleton, toList_join_concat, List.flatMap_map]
  simp only [Function.comp_apply, toList_literal_entry, frontText, List.append_assoc]

def HeaderMap.text (h : HeaderMap) : String :=
  if h.sorted.isEmpty then "" else
    (Value.list (h.sorted.map fun e => .pair (.text e.1) (.text e.2))).literal

theorem HeaderMap.toList_text_of_nil {h : HeaderMap} (hsorted : h.sorted = []) :
    h.text.toList = [] := by
  rw [HeaderMap.text, hsorted]
  rfl

theorem HeaderMap.toList_text_of_concat {h : HeaderMap} {es : List (String × String)}
    {e : String × String} (hsorted : h.sorted = es ++ [e]) :
    h.text.toList = frontText es ++ entryText e ++ [']'] := by
  have hsome : ¬h.sorted.isEmpty := by simp [hsorted]
  rw [HeaderMap.text, if_neg hsome, hsorted, toList_literal_entries]

theorem cacheKey_headers (url : String) (h : HeaderMap) :
    cacheKey url h.headers = "GET:" ++ url ++ ":" ++ h.text := by
  have hsorted : h.headers.mergeSort (fun a b => isUpTo (codes a.1) (codes b.1)) =
      h.sorted.map fun e => (e.1, .text e.2) :=
    (List.map_mergeSort (f := fun e : String × String => (e.1, Value.text e.2))
      fun _ _ _ _ => rfl).symm
  have hempty : h.headers.isEmpty = h.sorted.isEmpty := by
    rw [HeaderMap.headers, List.isEmpty_map, h.sorted_perm.isEmpty_eq]
  unfold cacheKey
  dsimp only
  rw [hsorted, hempty, List.map_map]
  rfl

theorem append_text_inj {x y : List Char} {h h' : HeaderMap}
    (heq : x ++ [':'] ++ h.text.toList = y ++ [':'] ++ h'.text.toList) :
    x = y ∧ h.sorted = h'.sorted := by
  have hends (z w : List Char) : z ++ [':'] ≠ w ++ [']'] :=
    append_ne_append z w rfl rfl (by decide)
  obtain hnone | ⟨es, e, hes⟩ := h.sorted.eq_nil_or_concat' <;>
    obtain hnone' | ⟨fs, f, hfs⟩ := h'.sorted.eq_nil_or_concat'
  · rw [HeaderMap.toList_text_of_nil hnone, HeaderMap.toList_text_of_nil hnone'] at heq
    exact ⟨by simpa using heq, hnone.trans hnone'.symm⟩
  · rw [HeaderMap.toList_text_of_nil hnone, HeaderMap.toList_text_of_concat hfs, List.append_nil,
      ← List.append_assoc] at heq
    exact absurd heq (hends x _)
  · rw [HeaderMap.toList_text_of_concat hes, HeaderMap.toList_text_of_nil hnone', List.append_nil,
      ← List.append_assoc] at heq
    exact absurd heq.symm (hends y _)
  · rw [HeaderMap.toList_text_of_concat hes, HeaderMap.toList_text_of_concat hfs] at heq
    simp only [← List.append_assoc] at heq
    have hproper (g : HeaderMap) {gs : List (String × String)} {a : String × String}
        (hg : g.sorted = gs ++ [a]) :
        (∀ b ∈ gs, IsProper b.1 ∧ IsProper b.2) ∧ IsProper a.1 ∧ IsProper a.2 :=
      ⟨fun b hb => g.proper_of_mem_sorted (by simp [hg, hb]), g.proper_of_mem_sorted (by simp [hg])⟩
    obtain ⟨hfront, rfl⟩ := append_entryText_inj (hproper h hes).2 (hproper h' hfs).2
      (List.append_cancel_right heq)
    obtain ⟨hurl, rfl⟩ := append_frontText_inj (hproper h hes).1 (hproper h' hfs).1 hfront
    exact ⟨List.append_cancel_right hurl, hes.trans hfs.symm⟩

theorem cacheKey_eq_iff {url url' : String} {h h' : HeaderMap} :
    cacheKey url h.headers = cacheKey url' h'.headers ↔ url = url' ∧ h.Same h' := by
  rw [cacheKey_headers, cacheKey_headers]
  constructor
  · intro heq
    rw [String.append_assoc, String.append_assoc, String.append_assoc, String.append_assoc,
      String.append_right_inj, ← String.append_assoc, ← String.append_assoc] at heq
    have hlist := congrArg String.toList heq
    simp only [String.toList_append] at hlist
    obtain ⟨hurl, hsorted⟩ := append_text_inj hlist
    exact ⟨String.toList_inj.mp hurl, HeaderMap.sorted_eq_iff.mp hsorted⟩
  · rintro ⟨rfl, hsame⟩
    rw [HeaderMap.text, HeaderMap.sorted_eq_iff.mpr hsame, HeaderMap.text]

/-! ### Requests that may have headers -/

/-- The headers a request has, which are none where it is given none. -/
def givenHeaders (h : Option HeaderMap) : Headers :=
  (h.map HeaderMap.headers).getD []

def givenValue? (h : Option HeaderMap) (name : String) : Option String :=
  h.bind fun h => h.value? name

theorem givenHeaders_eq (h : Option HeaderMap) :
    givenHeaders h = (h.getD HeaderMap.empty).headers := by
  cases h <;> rfl

theorem givenValue?_eq (h : Option HeaderMap) (name : String) :
    givenValue? h name = (h.getD HeaderMap.empty).value? name := by
  cases h <;> rfl

/-- Requests have one key if they are for one address and have the same under every name of their
headers, and only then. -/
theorem cacheKey_givenHeaders_eq_iff (url url' : String) (h h' : Option HeaderMap) :
    cacheKey url (givenHeaders h) = cacheKey url' (givenHeaders h') ↔
      url = url' ∧ ∀ name, givenValue? h name = givenValue? h' name := by
  simp only [givenHeaders_eq, givenValue?_eq]
  rw [cacheKey_eq_iff, HeaderMap.same_iff_value?]

end Provision.Http
