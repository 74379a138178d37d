import Provision.Proofs.Manifest.Alike
import Provision.Yaml.Graph

namespace Provision.Yaml

open Provision.Manifest (Alike IsVersionKey)

def IsKept (t : String) : Prop :=
  (∃ a, IsVersionText t a) ∧ ¬IsMisread t

/-- A node, and the node in its place where versions stand in quotes. -/
inductive Node.Requoted : Node → Node → Prop
  | same (n : Node) : Requoted n n
  | integer {t : String} {n : Int} (hread : Scalar.readInt t = .ok (.int n))
      (h : Alike (.int n) (.text t)) : Requoted (.scalar .int t) (.scalar .text t)

theorem requoted_scalar {t : String} (ht : IsKept t) :
    Node.Requoted (.scalar (Tag.ofPlain false t) t) (.scalar .text t) := by
  obtain ⟨⟨a, ha⟩, hkept⟩ := ht
  obtain ⟨htag, -⟩ | ⟨htag, n, hread, hshort, hiff⟩ := ha.read_plain
  · rw [htag]
    exact .same _
  · rw [htag]
    obtain rfl := hiff.mpr hkept
    exact .integer hread ((Manifest.isSpelling_int hshort).alike (Manifest.isSpelling_text ha))

def Node.isCollection : Node → Bool
  | .scalar _ _ => false
  | _ => true

structure NodePair where
  plain : Nodes
  quoted : Nodes

variable {w w₁ w₂ w₃ : NodePair} {i j : Nat} {n n' : Node} {entry : Nat × Nat}

structure Settled (w : NodePair) (j : Nat) : Prop where
  lt : j < w.plain.size
  eq : w.plain.node j = w.quoted.node j

structure SettledEntry (w : NodePair) (entry : Nat × Nat) : Prop where
  key : Settled w entry.1
  value : Settled w entry.2 ∨ ∃ key, IsVersionKey key ∧ w.plain.node entry.1 = .scalar .text key

def PartsSettled (w : NodePair) : Node → Prop
  | .scalar _ _ => True
  | .sequence _ items => ∀ i ∈ items, Settled w i
  | .mapping _ entries => ∀ e ∈ entries, SettledEntry w e

structure Twins (w : NodePair) : Prop where
  size : w.quoted.size = w.plain.size
  node (j : Nat) : Node.Requoted (w.plain.node j) (w.quoted.node j)
  parts (j : Nat) : PartsSettled w (w.plain.node j)

/-- What may become of a node: a collection takes other parts, and the key that stands for a value becomes
a text. -/
inductive Node.Becomes : Node → Node → Prop
  | same (n : Node) : Becomes n n
  | collection {n n' : Node} (h : n.isCollection) (h' : n'.isCollection) : Becomes n n'
  | text (s : String) : Becomes (.scalar .value s) (.scalar .text s)

theorem Node.Becomes.isCollection (h : n.Becomes n') (hn : n.isCollection) : n'.isCollection := by
  cases h with
  | same => exact hn
  | collection _ h' => exact h'
  | text => cases hn

theorem Node.Becomes.eq_text {s : String} (h : (Node.scalar .text s).Becomes n) :
    n = .scalar .text s := by
  cases h with
  | same => rfl
  | collection h => cases h

theorem Node.Becomes.trans {l m n : Node} (h : l.Becomes m) (h' : m.Becomes n) : l.Becomes n := by
  cases h with
  | same => exact h'
  | collection h hm => exact .collection h (h'.isCollection hm)
  | text s => exact h'.eq_text ▸ .text s

/-- What is known of a pair of nodes is still known later on. -/
structure Grows (w₁ w₂ : NodePair) : Prop where
  size : w₁.plain.size ≤ w₂.plain.size
  settled {j : Nat} : Settled w₁ j → Settled w₂ j
  unsettled {j : Nat} : j < w₁.plain.size → Settled w₂ j → Settled w₁ j
  becomes {j : Nat} : j < w₁.plain.size → (w₁.plain.node j).Becomes (w₂.plain.node j)

theorem Grows.refl (w : NodePair) : Grows w w :=
  ⟨le_rfl, id, fun _ => id, fun _ => .same _⟩

theorem Grows.trans (h₁ : Grows w₁ w₂) (h₂ : Grows w₂ w₃) : Grows w₁ w₃ where
  size := h₁.size.trans h₂.size
  settled h := h₂.settled (h₁.settled h)
  unsettled hj h := h₁.unsettled hj (h₂.unsettled (hj.trans_le h₁.size) h)
  becomes hj := (h₁.becomes hj).trans (h₂.becomes (hj.trans_le h₁.size))

theorem node_of_size_le {nodes : Nodes} (h : nodes.size ≤ j) : nodes.node j = .absent := by
  rw [Nodes.node, Array.getElem?_eq_none h]
  rfl

theorem lt_size_of_ne {nodes : Nodes} (h : nodes.node j ≠ .absent) : j < nodes.size :=
  Nat.lt_of_not_le fun hle => h (node_of_size_le hle)

theorem Grows.text {s : String} (h : Grows w₁ w₂) (hj : w₁.plain.node j = .scalar .text s) :
    w₂.plain.node j = .scalar .text s := by
  have hbecomes := h.becomes (lt_size_of_ne (by rw [hj]; nofun))
  rw [hj] at hbecomes
  exact hbecomes.eq_text

theorem Grows.collection (h : Grows w₁ w₂) (hj : (w₁.plain.node j).isCollection) :
    (w₂.plain.node j).isCollection :=
  (h.becomes (lt_size_of_ne fun heq => by rw [heq] at hj; cases hj)).isCollection hj

theorem SettledEntry.grows (h : SettledEntry w₁ entry) (hw : Grows w₁ w₂) : SettledEntry w₂ entry :=
  ⟨hw.settled h.key, h.value.imp hw.settled fun ⟨key, hkey, htext⟩ => ⟨key, hkey, hw.text htext⟩⟩

theorem PartsSettled.grows (h : PartsSettled w₁ n) (hw : Grows w₁ w₂) : PartsSettled w₂ n :=
  match n, h with
  | .scalar _ _, h => h
  | .sequence _ _, h => fun i hi => hw.settled (h i hi)
  | .mapping _ _, h => fun e he => (h e he).grows hw

theorem SettledEntry.settled (h : SettledEntry w entry) (htag : w.plain.tagAt entry.1 ≠ .text) :
    Settled w entry.2 := by
  refine h.value.resolve_right ?_
  rintro ⟨key, -, hkey⟩
  rw [Nodes.tagAt, hkey] at htag
  exact htag rfl

/-! ### New nodes -/

theorem node_push (nodes : Nodes) (n : Node) (j : Nat) :
    Nodes.node (nodes.push n) j = if j = nodes.size then n else nodes.node j := by
  unfold Nodes.node
  rw [Array.getElem?_push]
  split <;> rfl

def NodePair.push (w : NodePair) (n n' : Node) : NodePair :=
  ⟨w.plain.push n, w.quoted.push n'⟩

theorem node_push_of_lt {nodes : Nodes} (n : Node) (h : j < nodes.size) :
    Nodes.node (nodes.push n) j = nodes.node j := by
  rw [node_push, if_neg (Nat.ne_of_lt h)]

theorem Twins.settled_push_iff (hw : Twins w) (h : j < w.plain.size) :
    Settled (w.push n n') j ↔ Settled w j := by
  have hplain : (w.push n n').plain.node j = w.plain.node j := node_push_of_lt n h
  have hquoted : (w.push n n').quoted.node j = w.quoted.node j := node_push_of_lt n' (hw.size ▸ h)
  constructor
  · intro hj
    exact ⟨h, by rw [← hplain, hj.eq, hquoted]⟩
  · intro hj
    exact ⟨by simpa [NodePair.push] using Nat.lt_succ_of_lt h, by rw [hplain, hj.eq, hquoted]⟩

theorem Twins.grows_push (hw : Twins w) (n n' : Node) : Grows w (w.push n n') where
  size := by simp [NodePair.push]
  settled h := (hw.settled_push_iff h.lt).mpr h
  unsettled hj := (hw.settled_push_iff hj).mp
  becomes hj := by
    rw [NodePair.push, node_push_of_lt n hj]
    exact .same _

theorem Twins.push (hw : Twins w) (h : n.Requoted n') (hparts : PartsSettled w n) :
    Twins (w.push n n') where
  size := by simp [NodePair.push, hw.size]
  node j := by
    simp only [NodePair.push, node_push, hw.size]
    split
    · exact h
    · exact hw.node j
  parts j := by
    refine PartsSettled.grows ?_ (hw.grows_push n n')
    simp only [NodePair.push, node_push]
    split
    · exact hparts
    · exact hw.parts j

theorem Twins.settled_push (hw : Twins w) (n : Node) : Settled (w.push n n) w.plain.size where
  lt := by simp [NodePair.push]
  eq := by simp [NodePair.push, node_push, hw.size]

/-! ### Changed nodes -/

theorem node_set (nodes : Nodes) (n : Node) (i j : Nat) :
    Nodes.node (nodes.setIfInBounds i n) j =
      if j = i ∧ i < nodes.size then n else nodes.node j := by
  unfold Nodes.node
  rw [Array.getElem?_setIfInBounds]
  by_cases hj : j = i
  · subst hj
    by_cases hlt : j < nodes.size <;> simp [hlt]
  · rw [if_neg (Ne.symm hj), if_neg fun h => hj h.1]

def NodePair.set (w : NodePair) (i : Nat) (n n' : Node) : NodePair :=
  ⟨w.plain.setIfInBounds i n, w.quoted.setIfInBounds i n'⟩

theorem Twins.settled_of_isCollection (hw : Twins w) (h : (w.plain.node j).isCollection) :
    Settled w j where
  lt := lt_size_of_ne fun heq => by rw [heq] at h; cases h
  eq := by
    have hnode := hw.node j
    revert h hnode
    generalize w.plain.node j = n, w.quoted.node j = n'
    rintro h (_ | _)
    · rfl
    · cases h

theorem Twins.settled_set_iff (hw : Twins w) (hi : Settled w i) :
    Settled (w.set i n n) j ↔ Settled w j := by
  have hsize : (w.set i n n).plain.size = w.plain.size := by simp [NodePair.set]
  by_cases hj : j = i
  · refine iff_of_true ⟨by rw [hsize, hj]; exact hi.lt, ?_⟩ (hj ▸ hi)
    simp only [NodePair.set, node_set, hw.size]
    rw [if_pos ⟨hj, hi.lt⟩, if_pos ⟨hj, hi.lt⟩]
  · have hplain : (w.set i n n).plain.node j = w.plain.node j := by simp [NodePair.set, node_set, hj]
    have hquoted : (w.set i n n).quoted.node j = w.quoted.node j := by simp [NodePair.set, node_set, hj]
    exact ⟨fun h => ⟨hsize ▸ h.lt, by rw [← hplain, h.eq, hquoted]⟩,
      fun h => ⟨hsize ▸ h.lt, by rw [hplain, h.eq, hquoted]⟩⟩

structure Changes (w₁ w₂ : NodePair) : Prop extends Grows w₁ w₂ where
  size_eq : w₂.plain.size = w₁.plain.size

theorem Changes.refl (w : NodePair) : Changes w w :=
  ⟨.refl w, rfl⟩

theorem Changes.trans (h₁ : Changes w₁ w₂) (h₂ : Changes w₂ w₃) : Changes w₁ w₃ :=
  ⟨h₁.toGrows.trans h₂.toGrows, h₂.size_eq.trans h₁.size_eq⟩

theorem Twins.changes_set (hw : Twins w) (hi : Settled w i) (hn : (w.plain.node i).Becomes n) :
    Changes w (w.set i n n) where
  size := by simp [NodePair.set]
  size_eq := by simp [NodePair.set]
  settled := (hw.settled_set_iff hi).mpr
  unsettled _ := (hw.settled_set_iff hi).mp
  becomes {j} _ := by
    simp only [NodePair.set, node_set]
    split
    case isTrue hj => exact hj.1 ▸ hn
    case isFalse => exact .same _

theorem Twins.set (hw : Twins w) (hi : Settled w i) (hn : (w.plain.node i).Becomes n)
    (hparts : PartsSettled w n) : Twins (w.set i n n) where
  size := by simp [NodePair.set, hw.size]
  node j := by
    simp only [NodePair.set, node_set, hw.size]
    split
    · exact .same n
    · exact hw.node j
  parts j := by
    refine PartsSettled.grows ?_ (hw.changes_set hi hn).toGrows
    simp only [NodePair.set, node_set]
    split
    · exact hparts
    · exact hw.parts j

end Provision.Yaml
