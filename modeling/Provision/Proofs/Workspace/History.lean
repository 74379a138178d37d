import Provision.Proofs.Workspace.Contents
import Provision.Proofs.Workspace.Finding
import Provision.Proofs.Workspace.Outcome
import Provision.Proofs.Workspace.Remembering

namespace Provision

open Provision.Resolution Provision.Operation

/-- What is asked of repositories. -/
inductive Inquiry where
  | list (s : Source)
  | probe (s : Source) (r : Requirement)
  | find (s : Source) (id : String) (version : Value)
  | request (ss : List Source) (token : String)
  | resolve (S : Setting) (requested : List Installable)

def Inquiry.perform (w : Workspace) : Inquiry → Workspace
  | .list s => endWorld (Operation.list s w)
  | .probe s r => endWorld (access.probe s r w)
  | .find s id version => endWorld (findUnit s id version w)
  | .request ss token => endWorld (findRequested ss token w)
  | .resolve S requested => endWorld (Resolution.resolve access S requested w)

/-- What is done with repositories. -/
inductive Act where
  | inquire (q : Inquiry)
  /-- Adds a unit to a repository in memory. -/
  | declare (s : Source) (u : Installable)

/-- What happens in a workspace: something is done in it, or the outside changes. -/
inductive Event where
  | act (a : Act)
  | files (files : FileTree)
  /-- The server, the clock, the settings or the cache are changed. -/
  | client (client : Http.Client Float)

def Repository.declare (u : Installable) (r : Repository) : Repository :=
  match r.identity with
  | .memory _ => r.add u
  | .folder _ | .remote _ => r

def Workspace.declare (s : Source) (u : Installable) (w : Workspace) : Workspace :=
  w.modifyRepository s (Repository.declare u)

open Event in
def Event.perform (w : Workspace) : Event → Workspace
  | act (.inquire q) => q.perform w
  | act (.declare s u) => w.declare s u
  | files tree => { w with files := tree }
  | client c => { w with http := c }

def Workspace.after (w : Workspace) (events : List Event) : Workspace :=
  events.foldl Event.perform w

def Event.added? (handle : Nat) : Event → Option Installable
  | .act (.declare s u) => if s.handle = handle then some u else none
  | .act (.inquire _) | .files _ | .client _ => none

/-- The units that are added to the repository of a handle, in order. -/
def added (handle : Nat) (events : List Event) : List Installable :=
  events.filterMap (Event.added? handle)

variable {s : Source} {w v w₀ : Workspace} {us : List Installable}

theorem Inquiry.reaches (w : Workspace) (q : Inquiry) : Reaches access w (q.perform w) := by
  have hask (q : Question) (v : Workspace) (h : Reaches access w v) := reaches_ask h q
  have hnote (m : Log.Record) (v : Workspace) (h : Reaches access w v) := h.note m
  have hself := mirrored_self hask hnote
  have hfind (s : Source) := congruent_findUnit (hself.ask (.list s)) (hself.ask (.describe s))
  cases q with
  | list s => exact hask (.list s) w .start
  | probe s r =>
    rw [Inquiry.perform, endWorld_probe]
    exact hask (.list s) w .start
  | find s id version => exact (hfind s id version).keeps .start
  | request ss token => exact (congruent_findRequested (fun s _ => hfind s) token).keeps .start
  | resolve S requested => exact keeps_resolve hask hnote .start

theorem added_cons (handle : Nat) (e : Event) (events : List Event) :
    added handle (e :: events) = (e.added? handle).toList ++ added handle events := by
  rw [added, List.filterMap_cons]
  cases e.added? handle <;> rfl

/-! ### Repositories in memory -/

theorem Repository.Holds.declare {r : Repository} (h : r.Holds us) (u : Installable) :
    (r.declare u).Holds (us ++ [u]) := by
  obtain ⟨name, hname⟩ := h.inMemory
  rw [Repository.declare, hname]
  exact ⟨⟨name, hname⟩, h.online, congrArg (· ++ [u]) h.declared, fun _ hmemo => nomatch hmemo⟩

theorem Workspace.Holds.declare (h : w.Holds s us) (t : Source) (u : Installable) :
    (w.declare t u).Holds s (us ++ if t.handle = s.handle then [u] else []) := by
  obtain ⟨r, hr, hh⟩ := h
  unfold Workspace.declare Workspace.Holds
  rw [repository?_modify, hr]
  split
  case isTrue => exact ⟨_, rfl, hh.declare u⟩
  case isFalse => exact ⟨r, rfl, (List.append_nil us).symm ▸ hh⟩

theorem Workspace.Holds.perform (h : w.Holds s us) (e : Event) :
    (e.perform w).Holds s (us ++ (e.added? s.handle).toList) := by
  have hsame : w.Holds s (us ++ (none : Option Installable).toList) :=
    (List.append_nil us).symm ▸ h
  match e with
  | .act (.inquire q) => exact holds_of_reaches (q.reaches w) hsame
  | .act (.declare t u) =>
    have hdeclare := h.declare t u
    rw [Event.added?]
    split at hdeclare
    case isTrue ht =>
      rw [if_pos ht]
      exact hdeclare
    case isFalse ht =>
      rw [if_neg ht]
      exact hdeclare
  | .files tree => exact hsame
  | .client c => exact hsame

theorem Workspace.Holds.after (h : w.Holds s us) (events : List Event) :
    (w.after events).Holds s (us ++ added s.handle events) := by
  induction events generalizing w us with
  | nil => exact (List.append_nil us).symm ▸ h
  | cons e events ih =>
    rw [added_cons, ← List.append_assoc]
    exact ih (h.perform e)

/-! ### Other repositories -/

/-- A repository that is not in memory remembers its units. -/
structure Workspace.Retains (s : Source) (us : List Installable) (w : Workspace) : Prop where
  remembered : w.remembered? s.handle = some us
  outside : ∃ i, (w.repository? s).map Repository.identity = some i ∧ ∀ name, i ≠ .memory name

theorem Workspace.Retains.reaches (h : w.Retains s us) (hv : Reaches access w v) :
    v.Retains s us := by
  refine ⟨?_, ?_⟩
  · exact of_reaches (lasting_remembered s.handle us) (keeps_list_of_remembered s.handle us) hv
      h.remembered
  · rw [identity_of_reaches hv s]
    exact h.outside

theorem Repository.declare_of_outside {r : Repository} (h : ∀ name, r.identity ≠ .memory name)
    (u : Installable) : r.declare u = r := by
  unfold Repository.declare
  split
  · rename_i name hname
    exact absurd hname (h name)
  · rfl
  · rfl

theorem Workspace.Retains.declare (h : w.Retains s us) (t : Source) (u : Installable) :
    (w.declare t u).Retains s us := by
  have hrepository : (w.declare t u).repository? s = w.repository? s := by
    obtain ⟨i, hi, houtside⟩ := h.outside
    obtain ⟨r, hr, rfl⟩ := Option.map_eq_some_iff.mp hi
    unfold Workspace.declare
    rw [repository?_modify, hr]
    split
    · rw [Option.map_some, Repository.declare_of_outside houtside]
    · rfl
  exact ⟨(congrArg (·.bind Repository.memo) hrepository).trans h.remembered, hrepository ▸ h.outside⟩

theorem Workspace.Retains.perform (h : w.Retains s us) (e : Event) : (e.perform w).Retains s us := by
  match e with
  | .act (.inquire q) => exact h.reaches (q.reaches w)
  | .act (.declare t u) => exact h.declare t u
  | .files files => exact ⟨h.remembered, h.outside⟩
  | .client client => exact ⟨h.remembered, h.outside⟩

theorem Workspace.Retains.after (h : w.Retains s us) (events : List Event) :
    (w.after events).Retains s us := by
  induction events generalizing w with
  | nil => exact h
  | cons e events ih => exact ih (h.perform e)

theorem retains_of_list {r : Repository} (hr : w.repository? s = some r)
    (houtside : ∀ name, r.identity ≠ .memory name) (h : list s w = .ok us v) : v.Retains s us := by
  have hreach : Reaches access w v := by
    have hend : Reaches access w (endWorld (list s w)) := .list s .start
    rwa [h] at hend
  refine ⟨remembered_of_list_of_some hr h, r.identity, ?_, houtside⟩
  rw [Workspace.identity_of_reaches hreach s, hr]
  rfl

theorem Workspace.Retains.list (h : w.Retains s us) : Operation.list s w = .ok us w := by
  obtain ⟨r, hr, hm⟩ := Option.bind_eq_some_iff.mp h.remembered
  exact list_of_memo hr hm

/-! ### Workspaces with all repositories in memory -/

/-- A workspace with the repositories of another one, all of them in memory, and more units in them. -/
structure Workspace.Grown (more : Nat → List Installable) (w v : Workspace) : Prop where
  identity : ∀ s, (v.repository? s).map Repository.identity =
    (w.repository? s).map Repository.identity
  contents : SameContents w v
  holds : ∀ s r, w.repository? s = some r → v.Holds s (r.declared ++ more s.handle)

namespace Workspace

variable {more : Nat → List Installable} {x z : Workspace}

theorem Grown.repository?_eq_none (h : w.Grown more v) (hs : w.repository? s = none) :
    v.repository? s = none := by
  simpa only [hs, Option.map_none, Option.map_eq_none_iff] using h.identity s

theorem Grown.list (h : w.Grown more v) (s : Source) : answerOf (Operation.list s v) =
    .ok (((w.repository? s).map fun r => r.declared ++ more s.handle).getD []) := by
  cases hr : w.repository? s with
  | none =>
    rw [list_of_none (h.repository?_eq_none hr)]
    rfl
  | some r =>
    obtain ⟨v', hv'⟩ := list_of_holds (h.holds s r hr)
    rw [hv']
    rfl

theorem Grown.describe (h : w.Grown more v) (s : Source) : answerOf (Operation.describe s v) =
    .ok (match (w.repository? s).map Repository.identity with
      | some (.memory name) => name
      | _ => "") := by
  rw [Operation.describe, get_bind]
  cases hr : w.repository? s with
  | none =>
    rw [h.repository?_eq_none hr]
    rfl
  | some r =>
    obtain ⟨q, hq, hh⟩ := h.holds s r hr
    obtain ⟨name, hname⟩ := hh.inMemory
    rw [← hr, ← h.identity s, hq, Option.map_some, hname]
    dsimp only
    rw [Repository.describe, hname]
    rfl

theorem Grown.ask (hx : w.Grown more x) (hz : w.Grown more z) (q : Question) :
    answerOf (access.ask q z) = answerOf (access.ask q x) := by
  cases q with
  | list s => exact (hz.list s).trans (hx.list s).symm
  | describe s => exact (hz.describe s).trans (hx.describe s).symm
  | materialize u =>
    change answerOf (materialize u z) = answerOf (materialize u x)
    rw [materialize_apply, materialize_apply, hz.contents.lacksContent, hx.contents.lacksContent,
      hz.contents.locate, hx.contents.locate]

theorem Grown.reaches (h : w.Grown more v) {v' : Workspace} (hv : Reaches access v v') :
    w.Grown more v' := by
  have hcontents := sameContents_of_reaches hv
  refine ⟨fun s => ?_, ⟨hcontents.files.trans h.contents.files, fun s => ?_⟩, fun s r hr => ?_⟩
  · exact (identity_of_reaches hv s).trans (h.identity s)
  · exact (hcontents.lacking s).trans (h.contents.lacking s)
  · exact holds_of_reaches hv (h.holds s r hr)

theorem Grown.indistinct (hx : w.Grown more x) (hz : w.Grown more z) : Indistinct access x z := by
  refine ⟨fun x z => w.Grown more x ∧ w.Grown more z, ⟨fun q => ?_, fun _ _ _ => trivial, ?_⟩, hx, hz⟩
  · refine ⟨fun _ _ => trivial, fun x z _ ⟨hx, hz⟩ => ?_⟩
    exact sameEnd_of_answerOf (hx.ask hz q)
      ⟨hx.reaches (reaches_ask .start q), hz.reaches (reaches_ask .start q)⟩
  · exact fun m x z ⟨hx, hz⟩ => ⟨hx.reaches (.note m .start), hz.reaches (.note m .start)⟩

theorem Grown.declare (h : w.Grown more v) (t : Source) (u : Installable) :
    w.Grown (fun handle => more handle ++ if t.handle = handle then [u] else [])
      (v.declare t u) := by
  have hidentity (r : Repository) : (r.declare u).identity = r.identity := by
    unfold Repository.declare
    split <;> rfl
  have hlacking (r : Repository) : (r.declare u).lacksContent = r.lacksContent := by
    unfold Repository.declare
    split <;> rfl
  refine ⟨fun s => ?_, h.contents.modify t hlacking, fun s r hr => ?_⟩
  · exact (map_repository?_modify (fun r _ => hidentity r) s).trans (h.identity s)
  · rw [← List.append_assoc]
    exact (h.holds s r hr).declare t u

theorem Grown.congr {more' : Nat → List Installable} (h : w.Grown more v)
    (hmore : ∀ handle, more handle = more' handle) : w.Grown more' v :=
  funext hmore ▸ h

theorem Grown.act (h : w.Grown more v) (a : Act) :
    w.Grown (fun handle => more handle ++ ((Event.act a).added? handle).toList)
      ((Event.act a).perform v) := by
  cases a with
  | inquire q => exact (h.reaches (q.reaches v)).congr fun handle => (List.append_nil _).symm
  | declare t u =>
    refine (h.declare t u).congr fun handle => ?_
    rw [Event.added?]
    split <;> rfl

/-- After anything that is done, a workspace has grown by the units that were added. -/
theorem Grown.after (h : w.Grown more v) (acts : List Act) :
    w.Grown (fun handle => more handle ++ added handle (acts.map .act)) (v.after (acts.map .act)) := by
  induction acts generalizing v more with
  | nil => exact h.congr fun handle => (List.append_nil _).symm
  | cons a acts ih =>
    refine (ih (h.act a)).congr fun handle => ?_
    rw [List.map_cons, added_cons, List.append_assoc]

theorem grown_refl (h : ∀ r ∈ w.repositories, r.Holds r.declared) : w.Grown (fun _ => []) w := by
  refine ⟨fun _ => rfl, ⟨rfl, fun _ => rfl⟩, fun s r hr => ⟨r, hr, ?_⟩⟩
  rw [List.append_nil]
  exact h r (Array.mem_of_getElem? hr)

end Workspace

/-- What repositories remember of their units shows in no answer, whatever happens. One in memory that
can be read lists the units that were added to it, in order. Where all are in memory, everything that
can be asked is answered alike after histories in which the same units were added to each. Any other
one lists what it has once listed, for ever. -/
theorem answers_independent_of_memo (w : Workspace) :
    (∀ s r, w.repository? s = some r → r.Holds r.declared → ∀ events,
      answerOf (list s (w.after events)) = .ok (r.declared ++ added s.handle events)) ∧
    ((∀ r ∈ w.repositories, r.Holds r.declared) → ∀ acts acts' : List Act,
      (∀ handle, added handle (acts.map .act) = added handle (acts'.map .act)) →
      (w.after (acts.map .act)).AnswersAs (w.after (acts'.map .act))) ∧
    ∀ s r us w', w.repository? s = some r → (∀ name, r.identity ≠ .memory name) →
      list s w = .ok us w' → ∀ events, answerOf (list s (w'.after events)) = .ok us := by
  refine ⟨fun s r hr hh events => ?_, fun hall acts acts' hadded => ?_,
    fun s r us w' hr houtside hlist events => ?_⟩
  · have hw : w.Holds s r.declared := ⟨r, hr, hh⟩
    obtain ⟨v, hv⟩ := list_of_holds (hw.after events)
    rw [hv]
    rfl
  · have hgrown := Workspace.grown_refl hall
    refine Workspace.answersAs_of_indistinct ((hgrown.after acts).indistinct ?_)
    exact (hgrown.after acts').congr fun handle => congrArg _ (hadded handle).symm
  · rw [((retains_of_list hr houtside hlist).after events).list]
    rfl

namespace Operation

namespace Sample

def stocked : Manifest.Document :=
  [(.text "units", .list [.map [(.text "id", .text "a"), (.text "version", .text "1")]])]

def stockedText : List Char := "\x7b\"units\":[\x7b\"id\":\"a\",\"version\":\"1\"\x7d]\x7d".toList

def stockedBytes : ByteArray := ⟨(stockedText.map fun c => UInt8.ofNat c.toNat).toArray⟩

def stock : Installable :=
  .build unitNamespace "a" ⟨1, 0, 0, ""⟩ [] [] [] (some shelved)

def counter : Workspace := { repositories := #[.ofMemory "counter"] }

def atCounter : Source := ⟨.memory "counter", 0⟩

end Sample

open Sample

theorem stockedText_eq : stockedText =
    ['\x7b', '"', 'u', 'n', 'i', 't', 's', '"', ':', '[', '\x7b', '"', 'i', 'd', '"', ':', '"', 'a', '"', ',',
      '"', 'v', 'e', 'r', 's', 'i', 'o', 'n', '"', ':', '"', '1', '"', '\x7d', ']', '\x7d'] := by
  decide

theorem read_stocked : Json.read .asText stockedText = .ok (.map stocked) := by
  rw [stockedText_eq]
  rfl

theorem documentIn_stocked {origin : String} (h : Manifest.isJsonName origin = true) :
    documentIn (.ok (stockedText, origin)) = .ok stocked := by
  rw [documentIn_ok, Manifest.load, if_pos h, Manifest.readJson, read_stocked]
  rfl

theorem list_shelf_stocked : answerOf (list shelved (shelf stockedBytes)) = .ok [stock] := by
  have hs : (shelf stockedBytes).repository? shelved = some { identity := .folder "/units.json" } := rfl
  have ht : Manifested (shelf stockedBytes) (.folder "/units.json") (.ok (stockedText, "/units.json")) :=
    manifested_shelf (by decide)
  have hlist := answerOf_list hs rfl ht
  rw [documentIn_stocked (by decide)] at hlist
  exact hlist

/-- A unit is added to a repository that was listed before. A file is listed, and deleted then. -/
theorem answers_independent_of_memo_stocked :
    answerOf (list atCounter (counter.after [.act (.inquire (.list atCounter)),
      .act (.declare atCounter stock), .files {}])) = .ok [stock] ∧
    (counter.after ([.inquire (.list atCounter), .declare atCounter stock].map .act)).AnswersAs
      (counter.after ([.declare atCounter stock].map .act)) ∧
    ∃ w', list shelved (shelf stockedBytes) = .ok [stock] w' ∧
      answerOf (list shelved (w'.after [.files {}])) = .ok [stock] := by
  have hs : counter.repository? atCounter = some (.ofMemory "counter") := rfl
  have hh : (Repository.ofMemory "counter").Holds [] := ⟨⟨_, rfl⟩, rfl, rfl, nofun⟩
  have hall : ∀ r ∈ counter.repositories, r.Holds r.declared := by
    simp only [counter, List.mem_toArray, List.forall_mem_cons]
    exact ⟨hh, List.forall_mem_nil _⟩
  obtain ⟨hadded, halike, -⟩ := answers_independent_of_memo counter
  obtain ⟨-, -, hlasting⟩ := answers_independent_of_memo (shelf stockedBytes)
  obtain ⟨w', hw'⟩ := exists_of_answerOf_eq_ok list_shelf_stocked
  refine ⟨hadded atCounter _ hs hh _, halike hall _ _ fun handle => ?_, w', hw',
    hlasting shelved _ _ w' rfl nofun hw' _⟩
  rfl

end Operation

end Provision
