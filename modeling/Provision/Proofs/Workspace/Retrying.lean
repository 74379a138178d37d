import Provision.Proofs.Http.Attempts
import Provision.Proofs.Workspace.History

namespace Provision

open Provision.Resolution Provision.Operation Provision.Text

variable {s : Source} {w v : Workspace} {r : Repository} {f : Failure} {i : Identity}

def wanted? : Value → Except Failure (Option Version)
  | .null => .ok none
  | v => some <$> Version.ofValue v

/-- An inquiry needs the units of a repository and of no other one. -/
def Inquiry.Loads (s : Source) : Inquiry → Prop
  | .list t | .probe t _ => t = s
  | .find t _ version => t = s ∧ ∃ wanted, wanted? version = .ok wanted
  | .request _ _ | .resolve _ _ => False

def Inquiry.Spares (s : Source) : Inquiry → Prop
  | .list t | .probe t _ | .find t _ _ => t.handle ≠ s.handle
  | .request ss _ => ∀ t ∈ ss, t.handle ≠ s.handle
  | .resolve _ _ => False

/-- Something happens that does not need the units of a repository. -/
def Event.Spares (s : Source) : Event → Prop
  | act (.inquire q) => q.Spares s
  | act (.declare _ _) | files _ | client _ => True

/-- The repository that is referred to remembers no units. -/
def Workspace.Unread (s : Source) (i : Identity) (w : Workspace) : Prop :=
  ∃ r, w.repository? s = some r ∧ r.identity = i ∧ r.memo = none

namespace Operation

/-- Calls that need the units of a repository end as the list of them does. -/
structure Tells (w : Workspace) (s : Source) (listed : Except Failure (List Installable)) : Prop where
  list : answerOf (list s w) = listed
  probe : ∀ q, answerOf (access.probe s q w) = verdict q listed
  find : ∀ id version wanted u us, wanted? version = .ok wanted → listed = .ok us →
    Installable.select us id wanted = some u → answerOf (findUnit s id version w) = .ok u
  find_error : ∀ id version wanted f, wanted? version = .ok wanted → listed = .error f →
    answerOf (findUnit s id version w) = .error f

theorem findUnit_of_wanted {version : Value} {wanted : Option Version}
    (h : wanted? version = .ok wanted) (s : Source) (id : String) : findUnit s id version = (do
      match Installable.select (← Operation.list s) id wanted with
      | some u => return u
      | none => throw (.noUnit (unitLabel id wanted) (← describe s))) := by
  unfold findUnit
  dsimp only
  split
  · cases h
    rfl
  · rename_i hnull
    rw [wanted?] at h
    · cases hv : Version.ofValue version with
      | error f =>
        rw [hv] at h
        cases h
      | ok v =>
        rw [hv] at h
        cases h
        rfl
    · exact hnull

theorem tells_list (s : Source) (w : Workspace) : Tells w s (answerOf (Operation.list s w)) := by
  refine ⟨rfl, fun q => ?_, fun id version wanted u us hwanted hlist hselect => ?_,
    fun id version wanted f hwanted hlist => ?_⟩
  · unfold Access.probe
    have hlist : access.list s w = Operation.list s w := rfl
    rw [hlist]
    cases Operation.list s w with
    | ok units v =>
      dsimp only [answerOf, verdict]
      cases units.find? (·.satisfies q) <;> rfl
    | error f v =>
      dsimp only [answerOf, verdict]
      cases f.isMissing <;> rfl
  · obtain ⟨v, hv⟩ := exists_of_answerOf_eq_ok hlist
    rw [findUnit_of_wanted hwanted, bind_of_ok hv, hselect]
    rfl
  · obtain ⟨v, hv⟩ := exists_of_answerOf_eq_error hlist
    rw [findUnit_of_wanted hwanted, bind_of_error hv]
    rfl

/-- A call that needs the units of a repository leaves the workspace in which they could not be read. -/
theorem perform_of_loads {q : Inquiry} (hq : q.Loads s) (h : Operation.list s w = .error f v) :
    q.perform w = v := by
  cases q with
  | list t =>
    obtain rfl : t = s := hq
    rw [Inquiry.perform, h]
    rfl
  | probe t r =>
    obtain rfl : t = s := hq
    have hlist : access.list t w = .error f v := h
    rw [Inquiry.perform, endWorld_probe, hlist]
    rfl
  | find t id version =>
    obtain ⟨rfl, wanted, hwanted⟩ : t = s ∧ ∃ wanted, wanted? version = .ok wanted := hq
    rw [Inquiry.perform, findUnit_of_wanted hwanted, bind_of_error h]
    rfl
  | request ss token | resolve S requested => cases hq

/-! ### What is not remembered -/

theorem list_error_of_load (hs : w.repository? s = some r) (hi : ∀ name, r.identity ≠ .memory name)
    (h : Operation.list s w = .error f v) : r.memo = none ∧ load s r w = .error f v := by
  have hm : r.memo = none := by
    cases hm : r.memo with
    | none => rfl
    | some us =>
      rw [list_of_memo hs hm] at h
      cases h
  obtain ⟨t, ht⟩ := exists_manifested w hi
  have hload : answerOf (load s r w) = .error f := by
    rw [answerOf_load hs ht, ← answerOf_list hs hm ht, h]
    rfl
  obtain ⟨v', hv'⟩ := exists_of_answerOf_eq_error hload
  rw [list_of_unread hs hm, fetch, bind_of_error hv'] at h
  cases h
  exact ⟨hm, hv'⟩

end Operation

theorem lasting_unread (s : Source) (i : Identity) : Lasting (Workspace.Unread s i) where
  note m w h := by rwa [Workspace.Unread, Workspace.repository?_note]
  http _ _ h := h
  rename _ _ _ h := Workspace.exists_repository_modify h fun _ _ _ hr => hr

namespace Workspace

theorem unread_of_list_error (hs : w.repository? s = some r)
    (hi : ∀ name, r.identity ≠ .memory name) (h : Operation.list s w = .error f v) :
    v.Unread s r.identity := by
  obtain ⟨hm, hload⟩ := list_error_of_load hs hi h
  have hend := keeps_load (lasting_unread s r.identity) s r ⟨r, hs, rfl, hm⟩
  rwa [hload] at hend

theorem keeps_list_of_spared {t : Source} (ht : t.handle ≠ s.handle) :
    Keeps (Unread s i) (Operation.list t) := by
  refine keeps_list_of (lasting_unread s i) fun w r us v _ _ _ _ hv => ?_
  exact exists_repository_modify hv fun _ hsame => absurd hsame ht

theorem Unread.inquire (h : w.Unread s i) {q : Inquiry} (hq : q.Spares s) :
    (q.perform w).Unread s i := by
  have hfind (t : Source) (ht : t.handle ≠ s.handle) := congruent_findUnit (s := t)
    (congruent_of_keeps (keeps_list_of_spared ht (i := i))) (congruent_of_keeps (keeps_describe t))
  cases q with
  | list t => exact keeps_list_of_spared hq h
  | probe t r =>
    rw [Inquiry.perform, endWorld_probe]
    exact keeps_list_of_spared hq h
  | find t id version => exact (hfind t hq id version).keeps h
  | request ss token => exact (congruent_findRequested (fun t ht => hfind t (hq t ht)) token).keeps h
  | resolve S requested => cases hq

theorem Unread.perform (h : w.Unread s i) {e : Event} (he : e.Spares s) :
    (e.perform w).Unread s i := by
  match e with
  | .act (.inquire q) => exact h.inquire he
  | .act (.declare t u) =>
    refine exists_repository_modify h fun r _ _ hr => ?_
    unfold Repository.declare
    split
    · exact ⟨hr.1, rfl⟩
    · exact hr
    · exact hr
  | .files tree => exact h
  | .client c => exact h

theorem Unread.after (h : w.Unread s i) {events : List Event} (hspares : ∀ e ∈ events, e.Spares s) :
    (w.after events).Unread s i := by
  induction events generalizing w with
  | nil => exact h
  | cons e events ih =>
    rw [List.forall_mem_cons] at hspares
    exact ih (h.perform hspares.1) hspares.2

theorem lasting_conventions (c : Conventions) : Lasting fun w => w.conventions = c where
  note m w h := by
    rw [← h]
    unfold Workspace.note
    split <;> rfl
  http _ _ h := h
  rename _ _ _ h := h

theorem conventions_of_reaches (h : Reaches access w v) : v.conventions = w.conventions := by
  refine of_reaches (lasting_conventions w.conventions) (fun t => ?_) h rfl
  exact keeps_list_of (lasting_conventions w.conventions) fun _ _ _ _ _ _ _ _ hv => hv

theorem conventions_after (w : Workspace) (events : List Event) :
    (w.after events).conventions = w.conventions := by
  induction events generalizing w with
  | nil => rfl
  | cons e events ih =>
    refine (ih (e.perform w)).trans ?_
    match e with
    | .act (.inquire q) => exact conventions_of_reaches (q.reaches w)
    | .act (.declare t u) | .files tree | .client c => rfl

end Workspace

/-! ### What is asked of a server -/

namespace Operation

variable {α β : Type} {c : Http.Client Float} {url target : String}

theorem corresponding_http (c : Http.Client Float) :
    Corresponding fun w v => w = v ∧ w.http = c where
  toLegible := legible_self _
  note := by
    rintro m w _ ⟨rfl, hw⟩
    exact ⟨rfl, (http_note m w).trans hw⟩

theorem http_of_bind {x : Operation α} {g : α → Operation β} (hx : (endWorld (x w)).http = c)
    (hg : ∀ a, Keeps (fun v => v.http = c) (g a)) : (endWorld ((x >>= g) w)).http = c := by
  cases hw : x w with
  | ok a v =>
    rw [hw] at hx
    rw [bind_of_ok hw]
    exact hg a hx
  | error f v =>
    rw [hw] at hx
    rwa [bind_of_error hw]

theorem http_request (htarget : Url.publicText url = .ok target) (headers : Http.Headers)
    (w : Workspace) : (endWorld (request url headers w)).http = (w.http.get url headers).2.2 := by
  have hsaid (reply : Except Failure Http.Response) (events : List Http.Event) :
      Keeps (fun v => v.http = (w.http.get url headers).2.2) (do
        events.forM (traceEvent url)
        return (← ofExcept reply, events)) :=
    keeps_of_congruent (mirrors_bind (mirrors_forM (congruent_traceEvent (corresponding_http _) url) _)
      fun _ => mirrors_bind (congruent_ofExcept _) fun _ => mirrors_pure _)
  rw [request, get_bind, noted_of_publicText htarget]
  exact hsaid (w.http.get url headers).1 (w.http.get url headers).2.1
    (w := { w with http := (w.http.get url headers).2.2 }) rfl

theorem http_remoteDocument (htarget : Url.publicText url = .ok target) (w : Workspace) :
    (endWorld (remoteDocument url w)).http = (w.http.get url manifestHeaders).2.2 := by
  let noted := w.note ⟨.info, "Loading repository " ++ target ++ "...", []⟩
  have hrequest := http_request htarget manifestHeaders noted
  rw [http_note] at hrequest
  have hreplied := http_of_bind hrequest fun reply =>
    keeps_of_congruent (congruent_replied (corresponding_http _) target reply.1)
  rw [remoteDocument, htarget]
  exact hreplied

/-- A remote repository that was not read is asked for once. -/
theorem http_list (hs : w.repository? s = some r) (hm : r.memo = none)
    (hi : r.identity = .remote url) (htarget : Url.publicText url = .ok target) :
    (endWorld (list s w)).http = (w.http.get url manifestHeaders).2.2 := by
  have hload : (endWorld (load s r w)).http = (w.http.get url manifestHeaders).2.2 := by
    unfold load
    rw [hi]
    dsimp only
    rw [loadRemote_eq]
    refine http_of_bind (http_remoteDocument htarget w) fun d => keeps_of_congruent
      (congruent_unitsOf (corresponding_http _) ?_ d)
    rintro name v _ ⟨rfl, hv⟩
    exact ⟨rfl, hv⟩
  rw [list_of_unread hs hm]
  refine http_of_bind hload fun units => keeps_of_congruent (mirrors_bind
    (congruent_remember (corresponding_http _) ?_) fun _ => mirrors_pure units)
  rintro v _ ⟨rfl, hv⟩
  exact ⟨rfl, hv⟩

/-- Where no fresh answer is kept, a good reply of the server is what the manifest is read from. -/
theorem manifested_of_stale {w : Workspace} {extra : Nat} {reply : Http.Response}
    (htarget : Url.publicText url = .ok target) (hattempts : w.http.settings.attempts = .ok (extra + 1))
    (hstale : ∀ k, w.http.cache.lookup (Http.cacheKey url manifestHeaders) = some k →
      w.http.isFresh k = .ok false)
    (hnext : (w.http.server.next url).1 = .answer reply) (hstatus : reply.status = 200) :
    Manifested w (.remote url) (.ok (characters reply.text, target)) := by
  refine .body htarget ?_ hstatus
  rw [Http.Client.get_of_stale hstale]
  exact Http.Client.send_of_answer hattempts rfl hnext (by omega) _

end Operation

/-- After a repository could not be read, the next call that needs its units reads the manifest as it is
then, whatever else has happened that did not need them: a manifest in a folder from the file, one
behind an address from what the client answers. That sends a request, unless an answer is kept that is
still fresh; a server that has a good reply by then is listened to if there is none. -/
theorem reads_again_after_failure {f : Failure} {v₀ : Workspace} (hs : w.repository? s = some r)
    (hi : ∀ name, r.identity ≠ .memory name) (hfail : list s w = .error f v₀) {q : Inquiry}
    (hq : q.Loads s) {events : List Event} (hspares : ∀ e ∈ events, e.Spares s) :
    let v := (q.perform w).after events
    ∃ r', v.repository? s = some r' ∧ r'.identity = r.identity ∧ v.conventions = w.conventions ∧
      (∃ t, Manifested v r.identity t ∧ Tells v s (documentIn t >>= unitsIn v s r')) ∧
      (∀ path manifest content cs, r.identity = .folder path →
        Repository.manifestPath v.files v.conventions path = .ok manifest →
        v.files.read manifest = .ok content → charactersOf? content = some cs →
        Tells v s (documentIn (.ok (cs, manifest)) >>= unitsIn v s r')) ∧
      ∀ url target extra, r.identity = .remote url → Url.publicText url = .ok target →
        v.http.settings.attempts = .ok (extra + 1) →
        (∀ span : Float, ∃ b, Http.Time.isShorter span v.http.settings.cacheTtl = .ok b) →
        (endWorld (list s v)).http = (v.http.get url manifestHeaders).2.2 ∧
        (Http.requests (v.http.get url manifestHeaders).2.1 = 0 ↔
          ∃ k, v.http.cache.lookup (Http.cacheKey url manifestHeaders) = some k ∧
            v.http.isFresh k = .ok true) ∧
        (∀ k, v.http.cache.lookup (Http.cacheKey url manifestHeaders) = some k →
          v.http.isFresh k = .ok true →
          v.http.get url manifestHeaders = (.ok k.response, [.hit], v.http)) ∧
        ∀ reply, (v.http.server.next url).1 = .answer reply → reply.status = 200 →
          0 < Http.requests (v.http.get url manifestHeaders).2.1 →
          Tells v s (documentIn (.ok (characters reply.text, target)) >>= unitsIn v s r') := by
  intro v
  -- Nothing that has happened since needed the units, so they are still to be read.
  have hunread : v.Unread s r.identity := by
    have hperform : q.perform w = v₀ := perform_of_loads hq hfail
    have hafter := (Workspace.unread_of_list_error hs hi hfail).after hspares
    rwa [← hperform] at hafter
  obtain ⟨r', hr', hidentity, hm⟩ := hunread
  have htells {t : Except Failure (List Char × String)} (ht : Manifested v r.identity t) :
      Tells v s (documentIn t >>= unitsIn v s r') := by
    rw [← hidentity] at ht
    rw [← answerOf_list hr' hm ht]
    exact tells_list s v
  refine ⟨r', hr', hidentity, ?_, ?_, ?_, ?_⟩
  · exact (Workspace.conventions_after _ _).trans (Workspace.conventions_of_reaches (q.reaches w))
  · obtain ⟨t, ht⟩ := exists_manifested v hi
    exact ⟨t, ht, htells ht⟩
  · intro path manifest content cs hfolder hpath hread hcs
    exact htells (hfolder ▸ .file hpath hread hcs)
  · intro url target extra hremote htarget hattempts httl
    have hrequests := Http.Client.requests_get_eq_zero_iff hattempts httl url manifestHeaders
    refine ⟨http_list hr' hm (hidentity.trans hremote) htarget, hrequests,
      fun k => Http.Client.get_of_fresh rfl, fun reply hnext hstatus hsent => ?_⟩
    have hstale := Http.Client.stale_of_not_fresh httl
      (mt hrequests.mpr (Nat.ne_of_gt hsent))
    exact htells (hremote ▸ manifested_of_stale htarget hattempts hstale hnext hstatus)

namespace Operation

namespace Sample

def address : String := "http://r/units.json"

def refusal : Http.Response := ⟨404, [], ""⟩

def delivery : Http.Response := ⟨200, [], String.ofList stockedText⟩

def desk (reply : Http.Response) : Workspace where
  http := { server := ⟨[(address, [.answer reply])]⟩, clock := 1000.0 }
  repositories := #[.ofUrl address none]

def atDesk : Source := ⟨.remote address, 0⟩

def delivered : Installable := .build unitNamespace "a" ⟨1, 0, 0, ""⟩ [] [] [] (some atDesk)

def later (now : Float) : Http.Client Float where
  server := (desk delivery).http.server
  cache := [(Http.cacheKey address manifestHeaders, ⟨refusal, 1000.0⟩)]
  clock := now

end Sample

open Sample

theorem characters_delivery : characters delivery.text = stockedText := by decide

theorem unitsIn_stocked {w : Workspace} {s : Source} {r : Repository} (hc : w.conventions = {})
    (hi : ∀ url, r.identity = .remote url → ∃ target, Url.publicText url = .ok target) :
    unitsIn w s r stocked = .ok [.build unitNamespace "a" ⟨1, 0, 0, ""⟩ [] [] [] (some s)] := by
  obtain ⟨label, hlabel⟩ : ∃ label, (r.adopting stocked).describe = .ok label :=
    Repository.exists_name hi
  rw [unitsIn, hlabel, hc]
  rfl

theorem publicText_address : Url.publicText address = .ok address := rfl

theorem not_inMemory_desk (name : String) : (Repository.ofUrl address none).identity ≠ .memory name := by
  rintro ⟨⟩

theorem get_desk_refusal : (desk refusal).http.get address manifestHeaders =
    (.ok refusal, [.called, .answered 1 404],
      (desk refusal).http.keep (Http.cacheKey address manifestHeaders) refusal) := rfl

theorem manifested_of_refusal {w : Workspace}
    (h : (w.http.get address manifestHeaders).1 = .ok refusal) :
    Manifested w (.remote address) (.error (.answered address 404)) :=
  .answered publicText_address h (by decide) (by decide)

theorem list_desk_refusal :
    ∃ v₀, list atDesk (desk refusal) = .error (.answered address 404) v₀ := by
  have ht := manifested_of_refusal (congrArg Prod.fst get_desk_refusal)
  have hs : (desk refusal).repository? atDesk = some (.ofUrl address none) := rfl
  exact exists_of_answerOf_eq_error (answerOf_list hs rfl ht)

theorem list_shelf_brace : ∃ v₀, list shelved (shelf ⟨#[0x7b]⟩) =
    .error (.unparsable "/units.json" (Manifest.language "/units.json")) v₀ := by
  have hs : (shelf ⟨#[0x7b]⟩).repository? shelved = some { identity := .folder "/units.json" } := rfl
  have ht : Manifested (shelf ⟨#[0x7b]⟩) (.folder "/units.json") (.ok (['\x7b'], "/units.json")) :=
    manifested_shelf rfl
  have hdocument : documentIn (.ok (['\x7b'], "/units.json")) =
      .error (.unparsable "/units.json" (Manifest.language "/units.json")) :=
    Manifest.load_of_isUnparsable ⟨rfl, nofun⟩
  have hlist := answerOf_list hs rfl ht
  rw [hdocument] at hlist
  exact exists_of_answerOf_eq_error hlist

theorem not_fresh_later : ¬∃ k, (later 1300.0).cache.lookup (Http.cacheKey address manifestHeaders) =
    some k ∧ (later 1300.0).isFresh k = .ok true := by
  rintro ⟨k, hk, hfresh⟩
  have hkept : (later 1300.0).cache.lookup (Http.cacheKey address manifestHeaders) =
      some ⟨refusal, 1000.0⟩ := List.lookup_cons_self
  obtain rfl := Option.some.inj (hkept.symm.trans hk)
  have hstale : (later 1300.0).isFresh ⟨refusal, 1000.0⟩ = .ok false := rfl
  cases hstale.symm.trans hfresh

theorem http_of_refusal {v₀ : Workspace}
    (h : list atDesk (desk refusal) = .error (.answered address 404) v₀) :
    v₀.http = (desk refusal).http.keep (Http.cacheKey address manifestHeaders) refusal := by
  have hs : (desk refusal).repository? atDesk = some (.ofUrl address none) := rfl
  have hlist := http_list hs rfl rfl publicText_address
  rwa [h, get_desk_refusal] at hlist

theorem get_after_refusal {c : Http.Client Float} {server : Http.Server}
    (h : c = (desk refusal).http.keep (Http.cacheKey address manifestHeaders) refusal) :
    ({ c with server := server } : Http.Client Float).get address manifestHeaders =
      (.ok refusal, [.hit], { c with server := server }) := by
  refine @Http.Client.get_of_fresh _ _ {} _ _ _ ⟨refusal, 1000.0⟩ rfl ?_ ?_
  · change c.cache.lookup _ = _
    rw [h, Http.Client.lookup_keep, if_pos rfl]
    rfl
  · change Http.Time.isShorter (Http.Time.since c.clock 1000.0) c.settings.cacheTtl = _
    rw [h]
    rfl

/-- A file that is no manifest is replaced by one with a unit. A server that refused has a unit by the
time at which the refusal is not fresh any more. -/
theorem reads_again_after_failure_repaired :
    (∃ f v₀, list shelved (shelf ⟨#[0x7b]⟩) = .error f v₀ ∧
      answerOf (list shelved ((Inquiry.perform (shelf ⟨#[0x7b]⟩) (.list shelved)).after
        [.files (shelf stockedBytes).files])) = .ok [stock]) ∧
    ∃ f v₀, list atDesk (desk refusal) = .error f v₀ ∧
      answerOf (list atDesk ((Inquiry.perform (desk refusal) (.list atDesk)).after
        [.client (later 1300.0)])) = .ok [delivered] := by
  constructor
  · have hs : (shelf ⟨#[0x7b]⟩).repository? shelved = some { identity := .folder "/units.json" } := rfl
    have hspares : ∀ e ∈ [Event.files (shelf stockedBytes).files], e.Spares shelved :=
      List.forall_mem_singleton.mpr trivial
    obtain ⟨v₀, hv₀⟩ := list_shelf_brace
    refine ⟨_, v₀, hv₀, ?_⟩
    obtain ⟨r', -, hi', hconventions, -, hfolder, -⟩ :=
      reads_again_after_failure hs nofun hv₀ (q := .list shelved) rfl hspares
    have htells := hfolder "/units.json" "/units.json" stockedBytes stockedText rfl
      (hconventions ▸ manifestPath_shelf stockedBytes) (read_shelf stockedBytes) (by decide)
    rw [htells.list, documentIn_stocked (by decide)]
    exact unitsIn_stocked hconventions fun url hurl => nomatch hi'.symm.trans hurl
  · have hs : (desk refusal).repository? atDesk = some (.ofUrl address none) := rfl
    have hspares : ∀ e ∈ [Event.client (later 1300.0)], e.Spares atDesk :=
      List.forall_mem_singleton.mpr trivial
    obtain ⟨v₀, hv₀⟩ := list_desk_refusal
    refine ⟨_, v₀, hv₀, ?_⟩
    obtain ⟨r', -, hi', hconventions, -, -, hremote⟩ :=
      reads_again_after_failure hs not_inMemory_desk hv₀ (q := .list atDesk) rfl hspares
    obtain ⟨-, hrequests, -, hgood⟩ :=
      hremote address address 2 rfl publicText_address rfl fun span => ⟨_, rfl⟩
    have hsent : Http.requests ((later 1300.0).get address manifestHeaders).2.1 ≠ 0 :=
      mt hrequests.mp not_fresh_later
    have htells := hgood delivery rfl rfl (Nat.pos_of_ne_zero hsent)
    rw [htells.list, characters_delivery, documentIn_stocked (by decide)]
    exact unitsIn_stocked hconventions fun url hurl =>
      ⟨address, Identity.remote.inj (hi'.symm.trans hurl) ▸ publicText_address⟩

/-- After a refusal, the server has units. The refusal is kept, and given again without a request. -/
theorem refusal_outlives_repair :
    ∃ v₀, list atDesk (desk refusal) = .error (.answered address 404) v₀ ∧
      let v := v₀.after [.client { v₀.http with server := (desk delivery).http.server }]
      (v.http.server.next address).1 = .answer delivery ∧
      documentIn (.ok (characters delivery.text, address)) >>= unitsIn v atDesk (.ofUrl address none) =
        .ok [delivered] ∧
      Http.requests (v.http.get address manifestHeaders).2.1 = 0 ∧
      answerOf (list atDesk v) = .error (.answered address 404) := by
  have hs : (desk refusal).repository? atDesk = some (.ofUrl address none) := rfl
  obtain ⟨v₀, hv₀⟩ := list_desk_refusal
  refine ⟨v₀, hv₀, ?_⟩
  intro v
  have hconventions : v.conventions = {} := by
    have hreach := (Inquiry.list atDesk).reaches (desk refusal)
    rw [Inquiry.perform, hv₀] at hreach
    exact Workspace.conventions_of_reaches hreach
  have hunread : v₀.Unread atDesk (.remote address) :=
    Workspace.unread_of_list_error hs not_inMemory_desk hv₀
  obtain ⟨r', hr', hi', hm'⟩ : v.Unread atDesk (.remote address) := hunread
  have hagain : v.http.get address manifestHeaders = (.ok refusal, [.hit], v.http) :=
    get_after_refusal (http_of_refusal hv₀)
  refine ⟨rfl, ?_, by rw [hagain]; rfl, ?_⟩
  · rw [characters_delivery, documentIn_stocked (by decide)]
    have hunits := unitsIn_stocked (s := atDesk) (r := .ofUrl address none) hconventions fun url hurl =>
      ⟨address, Identity.remote.inj hurl ▸ publicText_address⟩
    exact hunits
  · have ht' : Manifested v r'.identity (.error (.answered address 404)) :=
      hi' ▸ manifested_of_refusal (congrArg Prod.fst hagain)
    rw [answerOf_list hr' hm' ht']
    rfl

end Operation

end Provision
