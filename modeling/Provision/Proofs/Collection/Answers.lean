import Provision.Collection.Call
import Provision.Proofs.Collection
import Provision.Proofs.Version.Order

namespace Provision.Collection

variable {α : Type} [Versioned α] {c : Collection α} {as : List α} {a b : α} {best : Option α}
  {id : String} {v : Version} {range : VersionRange}

/-! ### Items -/

def isNewAt (as : List α) (place : α × Nat) : Bool :=
  ∀ b ∈ as.take place.2, key b ≠ key place.1

def newcomers (as : List α) : List α :=
  (as.zipIdx.filter (isNewAt as)).map Prod.fst

theorem isNewAt_concat (a : α) {place : α × Nat} (h : place ∈ as.zipIdx) :
    isNewAt (as ++ [a]) place = isNewAt as place := by
  have hplace : place.2 ≤ as.length := by
    have := List.snd_lt_of_mem_zipIdx h
    omega
  rw [isNewAt, List.take_append_of_le_length hplace, isNewAt]

theorem isNewAt_length (as : List α) (a : α) :
    isNewAt (as ++ [a]) (a, as.length) ↔ ∀ b ∈ as, key b ≠ key a := by
  simp [isNewAt]

theorem newcomers_concat (as : List α) (a : α) : newcomers (as ++ [a]) =
    if ∀ b ∈ as, key b ≠ key a then newcomers as ++ [a] else newcomers as := by
  have hfront := List.filter_congr fun place (h : place ∈ as.zipIdx) => isNewAt_concat a h
  have hlast : [a].zipIdx (0 + as.length) = [(a, as.length)] := by simp
  unfold newcomers
  rw [List.zipIdx_append, List.filter_append, hfront, List.map_append, hlast]
  by_cases ha : ∀ b ∈ as, key b ≠ key a
  · rw [if_pos ha, List.filter_cons_of_pos ((isNewAt_length as a).mpr ha)]
    rfl
  · rw [if_neg ha, List.filter_cons_of_neg (mt (isNewAt_length as a).mp ha)]
    exact List.append_nil _

theorem mem_keys_newcomers (as : List α) (k : String × Version) :
    k ∈ (newcomers as).map key ↔ k ∈ as.map key := by
  induction as using List.reverseRecOn with
  | nil => rfl
  | append_singleton as a ih =>
    rw [newcomers_concat, List.map_append, List.mem_append]
    by_cases ha : ∀ b ∈ as, key b ≠ key a
    · rw [if_pos ha, List.map_append, List.mem_append, ih]
    · rw [if_neg ha, ih]
      push Not at ha
      obtain ⟨b, hb, hk⟩ := ha
      refine ⟨Or.inl, ?_⟩
      rintro (h | h)
      · exact h
      · obtain rfl := List.mem_singleton.mp h
        exact hk ▸ List.mem_map_of_mem hb

theorem has_eq_false_iff (h : c.items = newcomers as) :
    c.has a = false ↔ ∀ b ∈ as, key b ≠ key a := by
  rw [← Bool.not_eq_true, has_iff_mem_keys, h, mem_keys_newcomers, List.mem_map, not_exists]
  simp only [not_and]

theorem items_foldl_add (as : List α) : (as.foldl add {}).items = newcomers as := by
  induction as using List.reverseRecOn with
  | nil => rfl
  | append_singleton as a ih =>
    have hnew : (as.foldl add {}).has a = false ↔ ∀ b ∈ as, key b ≠ key a := has_eq_false_iff ih
    rw [List.foldl_append, List.foldl_cons, List.foldl_nil, newcomers_concat]
    cases h : (as.foldl add {}).has a with
    | false => rw [items_add h, if_pos (hnew.mp h), ih]
    | true => rw [add, if_pos h, if_neg (by simp [← hnew, h]), ih]

theorem nodup_keys_newcomers (as : List α) : ((newcomers as).map key).Nodup := by
  rw [← items_foldl_add]
  exact nodup_keys_foldl as List.nodup_nil

/-! ### Lookups -/

theorem isAt_iff : isAt id v a ↔ key a = (id, v) := by
  simp [isAt, key]

theorem contains_iff : c.contains id v ↔ ∃ a ∈ c.items, key a = (id, v) := by
  rw [contains, List.any_eq_true]
  simp only [isAt_iff]

theorem get?_eq_some_iff (h : (c.items.map key).Nodup) :
    c.get? id v = some a ↔ a ∈ c.items ∧ key a = (id, v) := by
  constructor
  · intro hget
    exact ⟨List.mem_of_find?_eq_some hget, isAt_iff.mp (List.find?_some hget)⟩
  · rintro ⟨ha, hk⟩
    obtain ⟨b, hb⟩ : ∃ b, c.get? id v = some b :=
      Option.isSome_iff_exists.mp (List.find?_isSome.mpr ⟨a, ha, isAt_iff.mpr hk⟩)
    have hbk : key b = (id, v) := isAt_iff.mp (List.find?_some hb)
    rw [hb, List.inj_on_of_nodup_map h ha (List.mem_of_find?_eq_some hb) (hk.trans hbk.symm)]

/-! ### The greatest version -/

structure IsLatestIn (as : List α) (id : String) (range : VersionRange) (a : α) : Prop where
  mem : a ∈ as
  id_eq : Versioned.id a = id
  includes : range.includes (Versioned.version a)
  le : ∀ b ∈ as, Versioned.id b = id → range.includes (Versioned.version b) →
    Versioned.version b ≤ Versioned.version a

theorem exists_later (best : Option α) (a : α) : ∃ b, later best a = some b ∧
    Versioned.version a ≤ Versioned.version b ∧
      ∀ x ∈ best, Versioned.version x ≤ Versioned.version b := by
  cases best with
  | none => exact ⟨a, rfl, Version.le_refl _, nofun⟩
  | some x =>
    by_cases hlt : Versioned.version x < Versioned.version a
    · refine ⟨a, if_pos hlt, Version.le_refl _, ?_⟩
      rintro _ ⟨⟩
      exact Version.le_iff_lt_or_eq.mpr (Or.inl hlt)
    · refine ⟨x, if_neg hlt, Version.le_of_not_lt hlt, ?_⟩
      rintro _ ⟨⟩
      exact Version.le_refl _

theorem le_of_foldl_later (h : as.foldl later best = some a) :
    (∀ x ∈ best, Versioned.version x ≤ Versioned.version a) ∧
      ∀ b ∈ as, Versioned.version b ≤ Versioned.version a := by
  induction as generalizing best with
  | nil =>
    refine ⟨?_, nofun⟩
    rintro x hx
    obtain rfl := Option.some.inj (hx.symm.trans h)
    exact Version.le_refl _
  | cons b as ih =>
    obtain ⟨y, hy, hby, hbest⟩ := exists_later best b
    obtain ⟨hya, has⟩ := ih h
    have hle := hya y hy
    constructor
    · intro x hx
      exact Version.le_trans (hbest x hx) hle
    · intro x hx
      obtain rfl | hx := List.mem_cons.mp hx
      · exact Version.le_trans hby hle
      · exact has x hx

theorem foldl_later_eq_none_iff : as.foldl later best = none ↔ best = none ∧ as = [] := by
  induction as generalizing best with
  | nil => simp
  | cons b as ih =>
    obtain ⟨y, hy, -⟩ := exists_later best b
    rw [List.foldl_cons, ih, hy]
    simp

theorem isCandidate_iff : isCandidate id range a ↔
    Versioned.id a = id ∧ range.includes (Versioned.version a) := by
  simp [isCandidate]

theorem find?_eq_none_iff : c.find? id range = none ↔
    ∀ a ∈ c.items, Versioned.id a = id → ¬range.includes (Versioned.version a) := by
  rw [find?, foldl_later_eq_none_iff, List.filter_eq_nil_iff]
  simp only [isCandidate_iff, not_and, true_and]

theorem isLatestIn_of_find? (h : c.find? id range = some a) : IsLatestIn c.items id range a := by
  obtain h' | hmem := eq_or_mem_of_foldl_later h
  · cases h'
  · obtain ⟨ha, hcandidate⟩ := List.mem_filter.mp hmem
    obtain ⟨hid, hincludes⟩ := isCandidate_iff.mp hcandidate
    refine ⟨ha, hid, hincludes, fun b hb hbid hbincludes => ?_⟩
    exact (le_of_foldl_later h).2 b (List.mem_filter.mpr ⟨hb, isCandidate_iff.mpr ⟨hbid, hbincludes⟩⟩)

theorem find?_eq_some_iff (h : (c.items.map key).Nodup) :
    c.find? id range = some a ↔ IsLatestIn c.items id range a := by
  refine ⟨isLatestIn_of_find?, fun ha => ?_⟩
  cases hfind : c.find? id range with
  | none => exact absurd ha.includes (find?_eq_none_iff.mp hfind a ha.mem ha.id_eq)
  | some b =>
    have hb := isLatestIn_of_find? hfind
    have hversion : Versioned.version a = Versioned.version b :=
      Version.le_antisymm (hb.le a ha.mem ha.id_eq ha.includes) (ha.le b hb.mem hb.id_eq hb.includes)
    have hkey : key a = key b := Prod.ext (ha.id_eq.trans hb.id_eq.symm) hversion
    rw [List.inj_on_of_nodup_map h ha.mem hb.mem hkey]

/-! ### Calls -/

def Call.added? : Call α → Option α
  | .add a => some a
  | _ => none

def added (calls : List (Call α)) : List α :=
  calls.filterMap Call.added?

def after (calls : List (Call α)) : Collection α :=
  calls.foldl perform {}

theorem foldl_perform (calls : List (Call α)) (c : Collection α) :
    calls.foldl perform c = (added calls).foldl add c := by
  induction calls generalizing c with
  | nil => rfl
  | cons call calls ih => cases call <;> exact ih _

theorem items_after (calls : List (Call α)) : (after calls).items = newcomers (added calls) := by
  rw [after, foldl_perform, items_foldl_add]

theorem items_prefix_after (calls more : List (Call α)) :
    (after calls).items <+: (after (calls ++ more)).items := by
  rw [after, after, List.foldl_append, foldl_perform more]
  exact items_prefix_foldl _ _

/-- An answer depends on something that has to be read; where it cannot be, that is the answer. -/
def Read {β : Type} (read : Except Failure β) (p : β → Answer α → Prop) :
    Except Failure (Answer α) → Prop :=
  match read with
  | .ok b => fun r => ∃ reply, r = .ok reply ∧ p b reply
  | .error f => fun r => r = .error f

/-- The answer to a call, as told by all items that were added before. -/
def Answers (as : List α) : Call α → Except Failure (Answer α) → Prop
  | .add a => (· = .ok (.truth (∀ b ∈ as, key b ≠ key a)))
  | .has a => (· = .ok (.truth (∃ b ∈ newcomers as, key b = key a)))
  | .list => (· = .ok (.items (newcomers as)))
  | .size => (· = .ok (.count (newcomers as).length))
  | .contains id version => Read (readVersion version) fun v reply =>
    reply = .truth (∃ a ∈ newcomers as, key a = (id, v))
  | .get id version => Read (readVersion version) fun v reply =>
    ∃ found, reply = .item found ∧ ∀ a, found = some a ↔ a ∈ newcomers as ∧ key a = (id, v)
  | .find id range => Read (readRange range) fun range reply =>
    ∃ found, reply = .item found ∧
      (∀ a, found = some a ↔ IsLatestIn (newcomers as) id range a) ∧
      (found = none ↔ ∀ a ∈ newcomers as, Versioned.id a = id → ¬range.includes (Versioned.version a))

omit [Versioned α] in
theorem read_return {β : Type} (read : Except Failure β) {f : β → Answer α} {p : β → Answer α → Prop}
    (h : ∀ b, p b (f b)) : Read read p (do return f (← read)) := by
  cases read with
  | ok b => exact ⟨f b, rfl, h b⟩
  | error f => rfl

theorem answers_answer (hitems : c.items = newcomers as) (call : Call α) :
    Answers as call (c.answer call) := by
  have hnodup : (c.items.map key).Nodup := by
    rw [hitems]
    exact nodup_keys_newcomers as
  cases call with
  | add a =>
    refine congrArg (fun b => Except.ok (Answer.truth b)) ?_
    rw [Bool.eq_iff_iff, Bool.not_eq_true', has_eq_false_iff hitems, decide_eq_true_iff]
  | has a =>
    refine congrArg (fun b => Except.ok (Answer.truth b)) ?_
    rw [Bool.eq_iff_iff, has_iff_mem_keys, hitems, List.mem_map, decide_eq_true_iff]
  | list => exact congrArg (fun as => Except.ok (Answer.items as)) hitems
  | size => exact congrArg (fun as : List α => Except.ok (Answer.count as.length)) hitems
  | contains id version =>
    refine read_return _ fun v => congrArg Answer.truth ?_
    rw [Bool.eq_iff_iff, contains_iff, hitems, decide_eq_true_iff]
  | get id version =>
    refine read_return _ fun v => ⟨c.get? id v, rfl, fun a => ?_⟩
    rw [get?_eq_some_iff hnodup, hitems]
  | find id range =>
    refine read_return _ fun r => ⟨c.find? id r, rfl, fun a => ?_, ?_⟩
    · rw [find?_eq_some_iff hnodup, hitems]
    · rw [find?_eq_none_iff, hitems]

/-- Whatever was called before, answers are told by the items added until then, and what is in the
collection stays where it is. -/
theorem answers_after (calls : List (Call α)) :
    (∀ call, Answers (added calls) call ((after calls).answer call)) ∧
      ∀ more, (after calls).items <+: (after (calls ++ more)).items :=
  ⟨answers_answer (items_after calls), items_prefix_after calls⟩

end Provision.Collection
