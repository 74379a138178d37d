import Mathlib.Data.List.Induction
import Mathlib.Data.List.Nodup
import Provision.Collection

namespace Provision

theorem eraseDupsBy_loop_concat {α : Type} (rel : α → α → Bool) (as kept : List α) (a : α) :
    List.eraseDupsBy.loop rel (as ++ [a]) kept =
      if (List.eraseDupsBy.loop rel as kept).any (rel a) then List.eraseDupsBy.loop rel as kept
      else List.eraseDupsBy.loop rel as kept ++ [a] := by
  induction as generalizing kept with
  | nil => cases h : kept.any (rel a) <;> simp [List.eraseDupsBy.loop, h]
  | cons b as ih => cases h : kept.any (rel b) <;> simp [List.eraseDupsBy.loop, h, ih]

namespace Collection

variable {α : Type} [Versioned α]

def key (a : α) : String × Version := (Versioned.id a, Versioned.version a)

theorem has_iff_mem_keys (c : Collection α) (a : α) : c.has a ↔ key a ∈ c.items.map key := by
  simp [has, contains, isAt, key]

theorem items_add {c : Collection α} {a : α} (h : c.has a = false) :
    (c.add a).items = c.items ++ [a] := by
  simp [add, h]

theorem items_prefix_add (c : Collection α) (a : α) : c.items <+: (c.add a).items := by
  cases h : c.has a with
  | true =>
    have hitems : (c.add a).items = c.items := congrArg items (if_pos h)
    exact ⟨[], by rw [List.append_nil, hitems]⟩
  | false =>
    rw [items_add h]
    exact List.prefix_append _ _

theorem items_prefix_foldl (as : List α) (c : Collection α) : c.items <+: (as.foldl add c).items := by
  induction as generalizing c with
  | nil => exact List.prefix_refl _
  | cons a as ih => exact (items_prefix_add c a).trans (ih _)

theorem nodup_keys_add {c : Collection α} (h : (c.items.map key).Nodup) (a : α) :
    ((c.add a).items.map key).Nodup := by
  cases ha : c.has a with
  | true => simpa only [add, ha, ↓reduceIte] using! h
  | false =>
    have hnew : key a ∉ c.items.map key := by
      rw [← has_iff_mem_keys, ha]
      exact Bool.false_ne_true
    rw [items_add ha, List.map_append]
    exact h.append (List.nodup_singleton _) (List.disjoint_singleton.mpr hnew)

theorem nodup_keys_foldl (as : List α) {c : Collection α} (h : (c.items.map key).Nodup) :
    ((as.foldl add c).items.map key).Nodup := by
  induction as generalizing c with
  | nil => exact h
  | cons a as ih => exact ih (nodup_keys_add h a)

def firsts (as : List α) : List α := as.eraseDupsBy fun a b => key a = key b

theorem any_key_eq_has (c : Collection α) (a : α) : (c.items.any fun b => key a = key b) = c.has a := by
  rw [Bool.eq_iff_iff, has_iff_mem_keys, List.mem_map, List.any_eq_true]
  simp only [decide_eq_true_iff]
  exact exists_congr fun b => and_congr_right fun _ => eq_comm

theorem foldl_add (as : List α) : as.foldl add {} = ⟨firsts as⟩ := by
  induction as using List.reverseRecOn with
  | nil => rfl
  | append_singleton as a ih =>
    rw [List.foldl_append, ih, List.foldl_cons, List.foldl_nil, add, ← any_key_eq_has]
    unfold firsts List.eraseDupsBy
    rw [eraseDupsBy_loop_concat]
    split <;> rfl

theorem eq_or_mem_of_foldl_later {as : List α} {best : Option α} {a : α}
    (h : as.foldl later best = some a) : best = some a ∨ a ∈ as := by
  induction as generalizing best with
  | nil => exact Or.inl h
  | cons b as ih =>
    obtain h | h := ih h
    · unfold later at h
      split at h
      · cases h
        exact Or.inr List.mem_cons_self
      · split at h
        · cases h
          exact Or.inr List.mem_cons_self
        · exact Or.inl h
    · exact Or.inr (List.mem_cons_of_mem b h)

end Collection

end Provision
