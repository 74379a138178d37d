import Provision.Value.Enumeration
import Provision.Value.Key
import Mathlib.Data.List.Basic

namespace Provision.Value

theorem sameKey_text {v : Value} {t : String} (h : sameKey v (.text t)) : v = .text t := by
  cases v with
  | text s =>
    obtain rfl : s = t := by simpa [sameKey] using h
    rfl
  | bool | int | float | null | bytes | date | timestamp | pair | list | map | set | knot | again =>
    simp [sameKey, asInt?] at h

variable {k v : Value} {entries acc : List (Value × Value)}

theorem insert_of_forall (h : ∀ e ∈ entries, ¬sameKey e.1 k) :
    insert k v entries = entries ++ [(k, v)] := by
  induction entries with
  | nil => rfl
  | cons e entries ih =>
    obtain ⟨he, hentries⟩ := List.forall_mem_cons.mp h
    rw [insert, if_neg he, ih hentries]
    rfl

theorem foldl_insert (h : (acc ++ entries).Pairwise fun d e => ¬sameKey d.1 e.1) :
    entries.foldl (fun acc (k, v) => insert k v acc) acc = acc ++ entries := by
  induction entries generalizing acc with
  | nil => exact (List.append_nil acc).symm
  | cons e entries ih =>
    obtain ⟨k, v⟩ := e
    have hnew : ∀ e ∈ acc, ¬sameKey e.1 k := fun e he =>
      (List.pairwise_append.mp h).2.2 e he (k, v) List.mem_cons_self
    rw [List.foldl_cons]
    change entries.foldl _ (insert k v acc) = _
    rw [insert_of_forall hnew, ih]
    · exact List.append_assoc acc [(k, v)] entries
    · simpa using h

theorem ofEntries_of_nodup (hkeys : ∀ e ∈ entries, ∃ s, e.1 = .text s)
    (h : (entries.map Prod.fst).Nodup) : ofEntries entries = entries := by
  refine foldl_insert ?_
  rw [List.Nodup, List.pairwise_map] at h
  refine h.imp_of_mem fun {d e} _ he hne hsame => hne ?_
  obtain ⟨s, hs⟩ := hkeys e he
  rw [hs] at hsame ⊢
  exact sameKey_text hsame

/-! ### Enumerated keys -/

variable {α : Type} {P : Nat × α → Prop} {t : Table α} {hash n : Nat} {a : α}

theorem forall_entries_insertAt (ha : P (hash, a)) (h : ∀ e ∈ t.entries, P e) :
    ∀ e ∈ (t.insertAt hash a).entries, P e := by
  intro e he
  unfold Table.entries Table.insertAt at he
  dsimp only at he
  obtain ⟨place, hplace, rfl⟩ := List.mem_filterMap.mp he
  rw [Array.toList_setIfInBounds] at hplace
  obtain hplace | heq := List.mem_or_eq_of_mem_set hplace
  · exact h e (List.mem_filterMap.mpr ⟨_, hplace, rfl⟩)
  · obtain rfl : e = (hash, a) := Option.some.inj heq
    exact ha

theorem forall_entries_make (size : Nat) : ∀ e ∈ (Table.make size : Table α).entries, P e := by
  intro e he
  obtain ⟨place, hplace, heq⟩ := List.mem_filterMap.mp he
  rw [Table.make, Array.toList_replicate] at hplace
  rw [List.eq_of_mem_replicate hplace] at heq
  cases heq

theorem forall_entries_resize (h : ∀ e ∈ t.entries, P e) : ∀ e ∈ (t.resize n).entries, P e :=
  List.foldlRecOn (motive := fun t : Table α => ∀ e ∈ t.entries, P e) t.entries _ (forall_entries_make _)
    fun _ ht e he => forall_entries_insertAt (h e he) ht

theorem forall_entries_add (ha : P (hash, a)) (h : ∀ e ∈ t.entries, P e) :
    ∀ e ∈ (t.add hash a).entries, P e := by
  unfold Table.add
  dsimp only
  split
  · exact forall_entries_resize (forall_entries_insertAt ha h)
  · exact forall_entries_insertAt ha h

theorem mem_of_mapM {f : α → Option Nat} : ∀ {keys : List α} {hashed : List (Nat × α)},
    (keys.mapM fun k => (f k).map fun hash => (hash, k)) = some hashed → ∀ e ∈ hashed, e.2 ∈ keys
  | [], hashed, h => by
    obtain rfl : [] = hashed := Option.some.inj h
    exact nofun
  | k :: keys, hashed, h => by
    simp only [List.mapM_cons, Option.bind_eq_bind, Option.bind_eq_some_iff, Option.map_eq_some_iff] at h
    obtain ⟨e, ⟨hash, -, rfl⟩, rest, hrest, heq⟩ := h
    obtain rfl : (hash, k) :: rest = hashed := Option.some.inj heq
    refine List.forall_mem_cons.mpr ⟨List.mem_cons_self, fun e he => ?_⟩
    exact List.mem_cons_of_mem k (mem_of_mapM hrest e he)

theorem mem_of_mem_enumerated {valueOf : α → Value} {keys : List α} {k : α}
    (h : k ∈ enumerated valueOf keys) : k ∈ keys := by
  unfold enumerated at h
  split at h
  case h_1 => exact h
  case h_2 hashed hkeys =>
    have hall : ∀ e ∈ hashed, e.2 ∈ keys :=
      mem_of_mapM (f := fun k => (residue? (valueOf k)).map fun r => (r % Int.pow 2 64).toNat)
        (by simpa only [Option.map_map, Function.comp_def] using hkeys)
    obtain ⟨e, he, rfl⟩ := List.mem_map.mp h
    refine List.foldlRecOn (motive := fun t : Table α => ∀ e ∈ t.entries, e.2 ∈ keys) _ _ ?_ ?_ e he
    · split
      · exact forall_entries_resize (forall_entries_make _)
      · exact forall_entries_make _
    · exact fun t ht e he => forall_entries_add (P := fun e => e.2 ∈ keys) (hall e he) ht

theorem enumerated_congr {f g : α → Value} {keys : List α} (h : ∀ k ∈ keys, f k = g k) :
    enumerated f keys = enumerated g keys := by
  have hmap : (keys.mapM fun k => (residue? (f k)).map fun r => ((r % Int.pow 2 64).toNat, k)) =
      keys.mapM fun k => (residue? (g k)).map fun r => ((r % Int.pow 2 64).toNat, k) := by
    induction keys with
    | nil => rfl
    | cons k keys ih =>
      obtain ⟨hk, hkeys⟩ := List.forall_mem_cons.mp h
      rw [List.mapM_cons, List.mapM_cons, hk, ih hkeys]
  unfold enumerated
  rw [hmap]

end Provision.Value
