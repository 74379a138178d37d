import Mathlib.Data.List.Forall2
import Provision.Failure

namespace Provision

variable {α β ε : Type}

theorem of_bind_eq_error {x : Except ε α} {g : α → Except ε β} {e : ε}
    (h : (x >>= g) = .error e) : x = .error e ∨ ∃ a, x = .ok a ∧ g a = .error e := by
  cases x with
  | error e' =>
    cases h
    exact Or.inl rfl
  | ok a => exact Or.inr ⟨a, rfl, h⟩

theorem bind_eq_ok_iff {x : Except ε α} {g : α → Except ε β} {b : β} :
    (x >>= g) = .ok b ↔ ∃ a, x = .ok a ∧ g a = .ok b := by
  cases x with
  | error f => simp [bind, Except.bind]
  | ok a => simp [bind, Except.bind]

theorem bind_congr_ok {x : Except ε α} {g g' : α → Except ε β} (h : ∀ a, x = .ok a → g a = g' a) :
    x >>= g = x >>= g' := by
  cases x with
  | error => rfl
  | ok a => exact h a rfl

theorem pure_eq_ok_iff {a b : α} : (pure a : Except Failure α) = .ok b ↔ a = b := by
  simp [pure, Except.pure]

theorem map_eq_ok_iff {g : α → β} {x : Except Failure α} {b : β} :
    g <$> x = .ok b ↔ ∃ a, x = .ok a ∧ g a = b := by
  cases x with
  | error f => exact ⟨nofun, nofun⟩
  | ok a => simp [Functor.map, Except.map]

theorem of_map_eq_error {g : α → β} {x : Except Failure α} {f : Failure}
    (h : g <$> x = .error f) : x = .error f := by
  cases x with
  | error f' =>
    cases h
    rfl
  | ok a => cases h

theorem throw_eq_ok_iff {f : Failure} {a : α} : (throw f : Except Failure α) = .ok a ↔ False :=
  ⟨nofun, nofun⟩

theorem unless_eq_ok_iff {c : Prop} [Decidable c] {f : Failure} {g : PUnit → Except Failure β} {b : β} :
    (if c then throw f >>= g else g ⟨⟩) = .ok b ↔ ¬c ∧ g ⟨⟩ = .ok b := by
  by_cases hc : c
  · rw [if_pos hc]
    exact ⟨nofun, fun h => absurd hc h.1⟩
  · rw [if_neg hc]
    exact ⟨fun h => ⟨hc, h⟩, And.right⟩

theorem of_unless_eq_error {c : Prop} [Decidable c] {f e : Failure} {g : PUnit → Except Failure β}
    (h : (if c then throw f >>= g else g ⟨⟩) = .error e) : f = e ∨ g ⟨⟩ = .error e := by
  by_cases hc : c
  · rw [if_pos hc] at h
    exact Or.inl (Except.error.inj h)
  · rw [if_neg hc] at h
    exact Or.inr h

theorem mapM_eq_ok_iff {g : α → Except Failure β} {as : List α} {bs : List β} :
    as.mapM g = .ok bs ↔ List.Forall₂ (fun a b => g a = .ok b) as bs := by
  induction as generalizing bs with
  | nil => rw [List.mapM_nil, pure_eq_ok_iff, List.forall₂_nil_left_iff, eq_comm]
  | cons a as ih =>
    simp only [List.mapM_cons, bind_eq_ok_iff, pure_eq_ok_iff, ih, List.forall₂_cons_left_iff]
    constructor
    · rintro ⟨b, hb, bs, hbs, rfl⟩
      exact ⟨b, bs, hb, hbs, rfl⟩
    · rintro ⟨b, bs, hb, hbs, rfl⟩
      exact ⟨b, hb, bs, hbs, rfl⟩

theorem mapM_eq_error_iff {g : α → Except Failure β} {as : List α} {f : Failure} :
    as.mapM g = .error f ↔ ∃ front a back, as = front ++ a :: back ∧
      (∀ x ∈ front, ∃ b, g x = .ok b) ∧ g a = .error f := by
  induction as with
  | nil => simp [pure, Except.pure]
  | cons a as ih =>
    rw [List.mapM_cons]
    constructor
    · intro h
      obtain h | ⟨b, hb, h⟩ := of_bind_eq_error h
      · exact ⟨[], a, as, rfl, nofun, h⟩
      · obtain h | ⟨bs, -, h⟩ := of_bind_eq_error h
        · obtain ⟨front, a', back, rfl, hfront, ha'⟩ := ih.mp h
          exact ⟨a :: front, a', back, rfl, List.forall_mem_cons.mpr ⟨⟨b, hb⟩, hfront⟩, ha'⟩
        · cases h
    · rintro ⟨front, a', back, heq, hfront, ha'⟩
      cases front with
      | nil =>
        obtain ⟨rfl, rfl⟩ := List.cons.inj heq
        rw [ha']
        rfl
      | cons x front =>
        obtain ⟨rfl, rfl⟩ := List.cons.inj heq
        obtain ⟨⟨b, hb⟩, hfront⟩ := List.forall_mem_cons.mp hfront
        rw [hb, ih.mpr ⟨front, a', back, rfl, hfront, ha'⟩]
        rfl

end Provision
