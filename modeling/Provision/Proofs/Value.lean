import Provision.Proofs.Text.Numeral
import Provision.Installable.Reader

namespace Provision.Value

open Provision.Text

theorem areWritable_iff (xs : List Value) : areWritable xs ↔ ∀ x ∈ xs, x.isWritable := by
  induction xs with
  | nil => simp [areWritable]
  | cons x xs ih => simp [areWritable, ih]

theorem entriesAreWritable_iff (entries : List (Value × Value)) :
    entriesAreWritable entries ↔ ∀ e ∈ entries, e.1.isWritable ∧ e.2.isWritable := by
  induction entries with
  | nil => simp [entriesAreWritable]
  | cons e entries ih => simp [entriesAreWritable, ih]

mutual

theorem isWritable_replace (label : Nat) {w : Value} (hw : w.isWritable) :
    ∀ v : Value, v.isWritable → (replace label w v).isWritable
  | .again l b => fun h => by
    unfold replace
    split
    · exact hw
    · exact h
  | .knot l v => fun h => by
    unfold replace
    split
    · exact h
    · exact isWritable_replace label hw v h
  | .pair a b => fun h => by
    obtain ⟨ha, hb⟩ : a.isWritable ∧ b.isWritable := by simpa [isWritable] using h
    simp [replace, isWritable, isWritable_replace label hw a ha, isWritable_replace label hw b hb]
  | .list xs => areWritable_replaceIn label hw xs
  | .map entries => entriesAreWritable_replaceInEntries label hw entries
  | .set _ | .null | .bool _ | .int _ | .float _ | .text _ | .bytes _ | .date _ | .timestamp _ => id

theorem areWritable_replaceIn (label : Nat) {w : Value} (hw : w.isWritable) :
    ∀ xs : List Value, areWritable xs → areWritable (replaceIn label w xs)
  | [] => id
  | x :: xs => fun h => by
    obtain ⟨hx, hxs⟩ : x.isWritable ∧ areWritable xs := by simpa [areWritable] using h
    simp [replaceIn, areWritable, isWritable_replace label hw x hx,
      areWritable_replaceIn label hw xs hxs]

theorem entriesAreWritable_replaceInEntries (label : Nat) {w : Value} (hw : w.isWritable) :
    ∀ entries : List (Value × Value), entriesAreWritable entries →
      entriesAreWritable (replaceInEntries label w entries)
  | [] => id
  | (k, v) :: rest => fun h => by
    obtain ⟨⟨hk, hv⟩, hrest⟩ : (k.isWritable ∧ v.isWritable) ∧ entriesAreWritable rest := by
      simpa [entriesAreWritable] using h
    simp [replaceInEntries, entriesAreWritable, hk, isWritable_replace label hw v hv,
      entriesAreWritable_replaceInEntries label hw rest hrest]

end

theorem isWritable_opened {v : Value} (h : v.isWritable) : v.opened.isWritable := by
  unfold opened
  split
  · rename_i label v
    have hv : v.isWritable := h
    exact isWritable_replace label h v hv
  · exact h

theorem mem_of_get? {key : String} {entries : List (Value × Value)} {v : Value}
    (h : get? key entries = some v) : (.text key, v) ∈ entries := by
  induction entries with
  | nil => cases h
  | cons e entries ih =>
    obtain ⟨k, x⟩ := e
    unfold get? at h
    split at h
    · rename_i found hfound
      cases h
      exact List.mem_cons_of_mem _ (ih hfound)
    · split at h
      · split at h
        · rename_i hk
          cases h
          rw [hk]
          exact List.mem_cons_self
        · cases h
      · cases h

theorem isWritable_of_get? {key : String} {entries : List (Value × Value)} {v : Value}
    (h : entriesAreWritable entries) (hv : get? key entries = some v) : v.isWritable :=
  ((entriesAreWritable_iff entries).mp h _ (mem_of_get? hv)).2

def IsLegible : Value → Prop
  | .text s => IsNumerate s.toList
  | .float x => IsNumerate (Decimal.text x).toList
  | _ => True

end Provision.Value
