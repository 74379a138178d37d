import Provision.Proofs.Resolution.Mirror
import Provision.Workspace.Access

namespace Provision

namespace Workspace

theorem repository?_note (m : Log.Record) (w : Workspace) (s : Source) :
    (w.note m).repository? s = w.repository? s := by
  unfold note
  split <;> rfl

theorem repository?_modify (t : Source) (f : Repository → Repository) (w : Workspace) (s : Source) :
    (w.modifyRepository t f).repository? s =
      if t.handle = s.handle then (w.repository? s).map f else w.repository? s := by
  simp only [repository?, modifyRepository, Array.getElem?_modify]

/-- A property of the repository behind a reference survives a change of another one, and one of this
that keeps it. -/
theorem exists_repository_modify {P : Repository → Prop} {s t : Source}
    {f : Repository → Repository} {w : Workspace} (h : ∃ r, w.repository? s = some r ∧ P r)
    (hf : ∀ r, t.handle = s.handle → w.repository? s = some r → P r → P (f r)) :
    ∃ r, (w.modifyRepository t f).repository? s = some r ∧ P r := by
  obtain ⟨r, hr, hP⟩ := h
  rw [repository?_modify]
  split
  case isTrue ht => exact ⟨f r, by rw [hr, Option.map_some], hf r ht hr hP⟩
  case isFalse => exact ⟨r, hr, hP⟩

theorem repository?_congr {s t : Source} (h : t.handle = s.handle) (w : Workspace) :
    w.repository? t = w.repository? s := by
  unfold repository?
  rw [h]

theorem map_repository?_modify {β : Type} {g : Repository → β} {t : Source}
    {f : Repository → Repository} {w : Workspace}
    (hf : ∀ r, w.repository? t = some r → g (f r) = g r) (s : Source) :
    ((w.modifyRepository t f).repository? s).map g = (w.repository? s).map g := by
  rw [repository?_modify]
  split
  case isTrue ht =>
    cases hs : w.repository? s with
    | none => rfl
    | some r => exact congrArg some (hf r ((repository?_congr ht w).trans hs))
  case isFalse => rfl

end Workspace

namespace Operation

open Provision.Resolution Provision.Text

variable {α : Type}

/-- An operation ends alike in workspaces that correspond to each other. -/
abbrev Congruent (rel : Workspace → Workspace → Prop) (x : Operation α) : Prop :=
  Mirrors (fun _ => True) rel x x

/-- Workspaces that correspond to each other have the same files and repositories. -/
structure Legible (rel : Workspace → Workspace → Prop) : Prop where
  files : ∀ x z, rel x z → x.files = z.files
  conventions : ∀ x z, rel x z → x.conventions = z.conventions
  threshold : ∀ x z, rel x z → x.threshold = z.threshold
  repository : ∀ s x z, rel x z → x.repository? s = z.repository? s

structure Corresponding (rel : Workspace → Workspace → Prop) : Prop extends Legible rel where
  note : ∀ m x z, rel x z → rel (x.note m) (z.note m)

def Modifiable (rel : Workspace → Workspace → Prop) (s : Source) (f : Repository → Repository) :
    Prop :=
  ∀ x z, rel x z → rel (x.modifyRepository s f) (z.modifyRepository s f)

abbrev Renamable (rel : Workspace → Workspace → Prop) (s : Source) : Prop :=
  ∀ name : Repository → Option String, Modifiable rel s fun r => { r with name := name r }

/-- The clients of workspaces that correspond to each other answer alike for an address, and the
workspaces still correspond to each other then. -/
structure Served (rel : Workspace → Workspace → Prop) (url : String) : Prop where
  reply : ∀ b x z, rel x z →
    (x.http.get url manifestHeaders (.noted b url)).1 =
      (z.http.get url manifestHeaders (.noted b url)).1
  events : ∀ b x z, rel x z →
    (x.http.get url manifestHeaders (.noted b url)).2.1 =
      (z.http.get url manifestHeaders (.noted b url)).2.1
  client : ∀ b x z, rel x z →
    rel { x with http := (x.http.get url manifestHeaders (.noted b url)).2.2 }
      { z with http := (z.http.get url manifestHeaders (.noted b url)).2.2 }

def folderDocument (path : String) : Operation Manifest.Document := do
  let w ← get
  let manifest ← ofExcept (Repository.manifestPath w.files w.conventions path)
  log .debug ("Reading repository manifest " ++ manifest)
  loadManifest (← readFile manifest) manifest

def remoteDocument (url : String) : Operation Manifest.Document := do
  let target ← ofExcept (Url.publicText url)
  log .info ("Loading repository " ++ target ++ "...")
  let (response, _) ← request url manifestHeaders
  trace "Repository manifest fetched" do
    return [("event", .text "repository_fetch"), ("component", .text "remote_repository"),
      ("status_code", .int response.status), ("target", .text target)]
  if response.status = 0 then throw (.unreachable target response.text)
  if response.status ≠ 200 then throw (.answered target response.status)
  loadManifest (characters response.text) target

theorem loadFolder_eq (s : Source) (path : String) :
    loadFolder s path = folderDocument path >>= unitsOf s := by
  simp only [loadFolder, folderDocument, bind_assoc]

theorem loadRemote_eq (s : Source) (url : String) :
    loadRemote s url = remoteDocument url >>= unitsOf s := by
  simp only [loadRemote, remoteDocument, bind_assoc]
  refine bind_congr fun target => bind_congr fun _ => bind_congr fun reply => ?_
  obtain ⟨response, events⟩ := reply
  refine bind_congr fun _ => ?_
  by_cases h0 : response.status = 0
  · simp only [h0, ↓reduceIte]
    rfl
  · by_cases h200 : response.status = 200
    · simp only [h200, ne_eq, not_true_eq_false, ↓reduceIte]
      rfl
    · simp only [h0, h200, ne_eq, not_false_eq_true, ↓reduceIte]
      rfl

theorem get_bind (g : Workspace → Operation α) (w : Workspace) : (get >>= g) w = g w w := rfl

variable {rel : Workspace → Workspace → Prop}

theorem congruent_get {g : Workspace → Operation α}
    (hg : ∀ x z, rel x z → g x = g z ∧ Congruent rel (g x)) : Congruent rel (get >>= g) := by
  refine ⟨fun _ _ => trivial, fun x z _ h => ?_⟩
  obtain ⟨heq, hcongruent⟩ := hg x z h
  rw [get_bind, get_bind, ← heq]
  exact hcongruent.same x z trivial h

theorem congruent_modify {f : Workspace → Workspace} (h : ∀ x z, rel x z → rel (f x) (f z)) :
    Congruent rel (modify f) :=
  ⟨fun _ _ => trivial, fun x z _ hxz => ⟨f z, h x z hxz, rfl⟩⟩

theorem congruent_ofExcept (e : Except Failure α) : Congruent rel (ofExcept e) := by
  cases e with
  | ok a => exact mirrors_pure a
  | error f => exact mirrors_throw f

section Legible

variable (h : Legible rel)

include h

theorem congruent_describe (s : Source) : Congruent rel (describe s) := by
  refine congruent_get fun x z hxz => ⟨by rw [h.repository s x z hxz], ?_⟩
  cases x.repository? s with
  | none => exact mirrors_pure _
  | some r => exact congruent_ofExcept _

theorem congruent_readFile (path : String) : Congruent rel (readFile path) := by
  refine congruent_get fun x z hxz => ⟨by rw [h.files x z hxz], ?_⟩
  split
  · exact mirrors_throw _
  · split
    · exact mirrors_pure _
    · exact mirrors_throw _

theorem congruent_materialize (u : Installable) : Congruent rel (materialize u) := by
  refine congruent_get fun x z hxz => ⟨?_, ?_⟩
  · have hlocate : locate x u = locate z u := by
      unfold locate
      rw [h.files x z hxz]
    have hlacks : lacksContent x u = lacksContent z u := by
      unfold lacksContent
      cases u.owner with
      | none => rfl
      | some s => rw [Option.bind_some, Option.bind_some, h.repository s x z hxz]
    rw [hlocate, hlacks]
  · dsimp only
    split
    · exact mirrors_bind (mirrors_throw _) fun _ => congruent_ofExcept _
    · exact congruent_ofExcept _

theorem isTracing_eq {x z : Workspace} (hxz : rel x z) : x.isTracing = z.isTracing := by
  unfold Workspace.isTracing
  rw [h.threshold x z hxz]

end Legible

section Corresponding

variable (h : Corresponding rel)

include h

theorem congruent_log (level : Log.Level) (message : String) (context : List (String × Value)) :
    Congruent rel (log level message context) :=
  congruent_modify (h.note _)

theorem congruent_trace (message : String) {context : Operation (List (String × Value))}
    (hcontext : Congruent rel context) : Congruent rel (trace message context) := by
  refine congruent_get fun x z hxz => ⟨by rw [isTracing_eq h.toLegible hxz], ?_⟩
  split
  · exact mirrors_bind hcontext fun _ => congruent_log h _ _ _
  · exact mirrors_pure _

theorem congruent_traceEvent (url : String) (e : Http.Event) :
    Congruent rel (traceEvent url e) := by
  refine congruent_get fun x z hxz => ⟨by rw [isTracing_eq h.toLegible hxz], ?_⟩
  split
  · refine mirrors_bind (congruent_ofExcept _) fun target => ?_
    split
    · exact congruent_trace h _ (mirrors_pure _)
    · exact mirrors_pure _
  · exact mirrors_pure _

theorem congruent_request {url : String} (hurl : Served rel url) :
    Congruent rel (request url manifestHeaders) := by
  have hsaid (reply : Except Failure Http.Response) (events : List Http.Event) :
      Congruent rel (do
        events.forM (traceEvent url)
        return (← ofExcept reply, events)) :=
    mirrors_bind (mirrors_forM (congruent_traceEvent h url) _) fun _ =>
      mirrors_bind (congruent_ofExcept _) fun _ => mirrors_pure _
  refine ⟨fun _ _ => trivial, fun x z _ hxz => ?_⟩
  have hsame := (hsaid (x.http.get url manifestHeaders (.noted x.isTracing url)).1
    (x.http.get url manifestHeaders (.noted x.isTracing url)).2.1).same
    _ _ trivial (hurl.client x.isTracing x z hxz)
  have hz : request url manifestHeaders z = (do
      (x.http.get url manifestHeaders (.noted x.isTracing url)).2.1.forM (traceEvent url)
      return (← ofExcept (x.http.get url manifestHeaders (.noted x.isTracing url)).1,
        (x.http.get url manifestHeaders (.noted x.isTracing url)).2.1) : Operation _)
        { z with http := (z.http.get url manifestHeaders (.noted x.isTracing url)).2.2 } := by
    rw [hurl.reply _ x z hxz, hurl.events _ x z hxz, isTracing_eq h.toLegible hxz]
    rfl
  rw [hz]
  exact hsame

theorem congruent_loadManifest (cs : List Char) (origin : String) :
    Congruent rel (loadManifest cs origin) := by
  unfold loadManifest
  dsimp only
  split
  · exact mirrors_bind (congruent_log h _ _ _) fun _ => congruent_ofExcept _
  · exact congruent_ofExcept _

theorem congruent_unitsOf {s : Source} (hname : Renamable rel s) (d : Manifest.Document) :
    Congruent rel (unitsOf s d) := by
  refine mirrors_bind (congruent_modify (hname _)) fun _ => ?_
  refine mirrors_bind (congruent_describe h.toLegible s) fun label => ?_
  refine congruent_get fun x z hxz => ⟨by rw [h.conventions x z hxz], ?_⟩
  exact mirrors_bind (congruent_ofExcept _) fun units =>
    mirrors_bind (congruent_log h _ _ _) fun _ => mirrors_pure _

theorem congruent_folderDocument (path : String) : Congruent rel (folderDocument path) := by
  refine congruent_get fun x z hxz => ⟨by rw [h.files x z hxz, h.conventions x z hxz], ?_⟩
  refine mirrors_bind (congruent_ofExcept _) fun manifest => ?_
  refine mirrors_bind (congruent_log h _ _ _) fun _ => ?_
  exact mirrors_bind (congruent_readFile h.toLegible _) fun _ => congruent_loadManifest h _ _

theorem congruent_replied (target : String) (reply : Http.Response) : Congruent rel (do
    trace "Repository manifest fetched" do
      return [("event", .text "repository_fetch"), ("component", .text "remote_repository"),
        ("status_code", .int reply.status), ("target", .text target)]
    if reply.status = 0 then throw (.unreachable target reply.text)
    if reply.status ≠ 200 then throw (.answered target reply.status)
    loadManifest (characters reply.text) target) := by
  refine mirrors_bind (congruent_trace h _ (mirrors_pure _)) fun _ => ?_
  have hread : Congruent rel (do
      if reply.status ≠ 200 then throw (.answered target reply.status)
      loadManifest (characters reply.text) target) := by
    dsimp only
    split
    · exact mirrors_bind (mirrors_throw _) fun _ => congruent_loadManifest h _ _
    · exact congruent_loadManifest h _ _
  dsimp only
  split
  · exact mirrors_bind (mirrors_throw _) fun _ => hread
  · exact hread

theorem congruent_remoteDocument {url : String} (hurl : Served rel url) :
    Congruent rel (remoteDocument url) := by
  refine mirrors_bind (congruent_ofExcept _) fun target => ?_
  refine mirrors_bind (congruent_log h _ _ _) fun _ => ?_
  exact mirrors_bind (congruent_request h hurl) fun reply => congruent_replied h target reply.1

theorem congruent_load {s : Source} {r : Repository} (hname : Renamable rel s)
    (hurl : ∀ url, r.identity = .remote url → Served rel url) : Congruent rel (load s r) := by
  unfold load
  split
  case h_1 =>
    unfold loadMemory
    split
    · exact mirrors_throw _
    · exact mirrors_pure _
  case h_2 path _ =>
    rw [loadFolder_eq]
    exact mirrors_bind (congruent_folderDocument h path) (congruent_unitsOf h hname)
  case h_3 url hr =>
    rw [loadRemote_eq]
    exact mirrors_bind (congruent_remoteDocument h (hurl url hr)) (congruent_unitsOf h hname)

theorem congruent_remember {s : Source} {units : List Installable}
    (hmemo : Modifiable rel s fun r => { r with memo := some units }) :
    Congruent rel (remember s units) := by
  have hfields : Congruent rel (remember.fields s units.length) :=
    mirrors_bind (congruent_describe h.toLegible s) fun _ => mirrors_pure _
  exact mirrors_bind (congruent_modify hmemo) fun _ => congruent_trace h _ hfields

end Corresponding

end Operation

end Provision
