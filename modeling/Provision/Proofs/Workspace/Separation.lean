import Provision.Proofs.Http.Client
import Provision.Proofs.Manifest
import Provision.Proofs.Workspace.Keeping

namespace Provision

open Provision.Resolution Provision.Operation

namespace Workspace

/-- Workspaces that are the same but for their messages and for what their clients have for some
addresses. -/
structure Apart (urls : String → Prop) (x z : Workspace) : Prop where
  files : x.files = z.files
  http : x.http.Agrees manifestHeaders urls z.http
  clock : x.http.clock = z.http.clock
  conventions : x.conventions = z.conventions
  repositories : x.repositories = z.repositories
  threshold : x.threshold = z.threshold

variable {urls : String → Prop} {url : String} {x y z : Workspace}

theorem apart_refl (x : Workspace) : x.Apart urls x :=
  ⟨rfl, x.http.agrees_refl, rfl, rfl, rfl, rfl⟩

theorem Apart.symm (h : x.Apart urls z) : z.Apart urls x :=
  ⟨h.files.symm, h.http.symm, h.clock.symm, h.conventions.symm, h.repositories.symm,
    h.threshold.symm⟩

theorem Apart.trans (hxy : x.Apart urls y) (hyz : y.Apart urls z) : x.Apart urls z :=
  ⟨hxy.files.trans hyz.files, hxy.http.trans hyz.http, hxy.clock.trans hyz.clock,
    hxy.conventions.trans hyz.conventions, hxy.repositories.trans hyz.repositories,
    hxy.threshold.trans hyz.threshold⟩

theorem apart_note (m : Log.Record) (x : Workspace) : x.Apart urls (x.note m) := by
  unfold note
  split <;> exact ⟨rfl, x.http.agrees_refl, rfl, rfl, rfl, rfl⟩

theorem Apart.note (h : x.Apart urls z) (m : Log.Record) : (x.note m).Apart urls (z.note m) :=
  ((apart_note m x).symm.trans h).trans (apart_note m z)

theorem Apart.modify (h : x.Apart urls z) (s : Source) (f : Repository → Repository) :
    (x.modifyRepository s f).Apart urls (z.modifyRepository s f) := by
  refine ⟨h.files, h.http, h.clock, h.conventions, ?_, h.threshold⟩
  simp only [modifyRepository, h.repositories]

theorem Apart.repository (h : x.Apart urls z) (s : Source) : x.repository? s = z.repository? s := by
  rw [repository?, h.repositories, repository?]

theorem corresponding_apart (urls : String → Prop) : Corresponding (Apart urls) where
  files _ _ := Apart.files
  conventions _ _ := Apart.conventions
  threshold _ _ := Apart.threshold
  repository s _ _ h := h.repository s
  note m _ _ h := h.note m

theorem served_apart (hurl : ¬urls url) : Served (Apart urls) url where
  reply _ _ _ h := (h.http.get h.clock _ hurl).1
  events _ _ _ h := (h.http.get h.clock _ hurl).2.1
  client _ _ _ h :=
    have hget := h.http.get h.clock _ hurl
    ⟨h.files, hget.2.2.1, hget.2.2.2, h.conventions, h.repositories, h.threshold⟩

/-- A repository lists the same in workspaces that are apart, unless its address is one of those that
they can differ in. -/
theorem Apart.list (h : x.Apart urls z) (s : Source)
    (hurl : ∀ r url, x.repository? s = some r → r.memo = none → r.identity = .remote url →
      ¬urls url) : SameEnd (Apart urls) (Operation.list s z) (Operation.list s x) := by
  cases hr : x.repository? s with
  | none =>
    rw [list_of_none hr, list_of_none ((h.repository s).symm.trans hr)]
    exact ⟨z, h, rfl⟩
  | some r =>
    have hrz := (h.repository s).symm.trans hr
    cases hm : r.memo with
    | some us =>
      rw [list_of_memo hr hm, list_of_memo hrz hm]
      exact ⟨z, h, rfl⟩
    | none =>
      rw [list_of_unread hr hm, list_of_unread hrz hm]
      have hload : Congruent (Apart urls) (load s r) :=
        congruent_load (corresponding_apart urls) (fun _ _ _ h => h.modify s _)
          fun url hremote => served_apart (hurl r url hr hm hremote)
      have hfetch : Congruent (Apart urls) (fetch s r) :=
        mirrors_bind hload fun units => mirrors_bind
          (congruent_remember (corresponding_apart urls) fun _ _ h => h.modify s _)
            fun _ => mirrors_pure units
      exact hfetch.same x z trivial h

theorem lasting_identity (s : Source) (i : Option Identity) :
    Lasting fun w => (w.repository? s).map Repository.identity = i where
  note m w h := by rwa [repository?_note]
  http _ _ h := h
  rename t name w h := by
    rw [map_repository?_modify]
    · exact h
    · exact fun _ _ => rfl

theorem identity_of_reaches {w v : Workspace} (h : Reaches access w v) (s : Source) :
    (v.repository? s).map Repository.identity = (w.repository? s).map Repository.identity := by
  have hlasting := lasting_identity s ((w.repository? s).map Repository.identity)
  refine of_reaches hlasting (fun t => keeps_list_of hlasting fun x r us v _ _ _ _ hv => ?_) h rfl
  rw [map_repository?_modify]
  · exact hv
  · exact fun _ _ => rfl

end Workspace

namespace Operation

variable {urls : String → Prop} {url : String} {s t : Source} {r q : Repository}
  {w w' x x' : Workspace} {f : Failure}

theorem not_missing_of_describe (h : describe s w = .error f w') : f.isMissing = false := by
  rw [eq_numeral_of_describe h]
  rfl

theorem not_missing_of_unitsOf {d : Manifest.Document} (h : unitsOf s d w = .error f w') :
    f.isMissing = false := by
  obtain h | ⟨_, w₁, -, h⟩ := of_bind_error h
  · cases h
  obtain h | ⟨label, w₂, -, h⟩ := of_bind_error h
  · exact not_missing_of_describe h
  rw [get_bind] at h
  cases hunits : Manifest.units w₂.conventions label (some s) d with
  | ok units =>
    rw [hunits] at h
    cases h
  | error g =>
    rw [hunits] at h
    cases h
    exact (Manifest.blames_units _ _ _ _ hunits).1.not_missing

theorem not_missing_of_remember {units : List Installable}
    (h : remember s units w = .error f w') : f.isMissing = false := by
  obtain h | ⟨_, w₁, -, h⟩ := of_bind_error h
  · cases h
  rw [trace, get_bind] at h
  split at h
  · obtain h | ⟨fields, w₂, -, h⟩ := of_bind_error h
    · obtain h | ⟨name, w₃, -, h⟩ := of_bind_error h
      · exact not_missing_of_describe h
      · cases h
    · cases h
  · cases h

theorem of_missing_list (h : list s x = .error f x') (hf : f.isMissing) :
    ∃ r, x.repository? s = some r ∧ r.memo = none ∧ load s r x = .error f x' := by
  cases hr : x.repository? s with
  | none =>
    rw [list_of_none hr] at h
    cases h
  | some r =>
    cases hm : r.memo with
    | some us =>
      rw [list_of_memo hr hm] at h
      cases h
    | none =>
      rw [list_of_unread hr hm] at h
      obtain h | ⟨units, w₁, -, h⟩ := of_bind_error h
      · exact ⟨r, rfl, hm, h⟩
      · obtain h | ⟨_, w₂, -, h⟩ := of_bind_error h
        · rw [not_missing_of_remember h] at hf
          cases hf
        · cases h

theorem of_missing_load (h : load s r x = .error f x') (hf : f.isMissing) :
    match r.identity with
    | .memory _ => x' = x
    | .folder path => folderDocument path x = .error f x'
    | .remote url => remoteDocument url x = .error f x' := by
  have hdocument {document : Operation Manifest.Document}
      (h : (document >>= unitsOf s) x = .error f x') : document x = .error f x' := by
    obtain h | ⟨d, w₁, -, h⟩ := of_bind_error h
    · exact h
    · rw [not_missing_of_unitsOf h] at hf
      cases hf
  unfold load at h
  cases hr : r.identity with
  | memory name =>
    rw [hr] at h
    dsimp only [loadMemory] at h ⊢
    split at h
    · cases h
      rfl
    · cases h
  | folder path =>
    rw [hr] at h
    exact hdocument (loadFolder_eq s path ▸ h)
  | remote url =>
    rw [hr] at h
    exact hdocument (loadRemote_eq s url ▸ h)

theorem corresponding_from (x : Workspace) :
    Corresponding fun w v => w = v ∧ x.Apart urls w where
  toLegible := legible_self _
  note := by
    rintro m w _ ⟨rfl, hw⟩
    exact ⟨rfl, hw.trans (Workspace.apart_note m w)⟩

theorem served_from (x : Workspace) (hurl : urls url) :
    Served (fun w v => w = v ∧ x.Apart urls w) url where
  reply := by rintro b w _ ⟨rfl, -⟩; rfl
  events := by rintro b w _ ⟨rfl, -⟩; rfl
  client := by
    rintro b w _ ⟨rfl, hw⟩
    have hclock : (w.http.get url manifestHeaders (.noted b url)).2.2.clock = w.http.clock :=
      Http.Client.clock_get_of_stands (Http.Course.stands_of_noting _) w.http url manifestHeaders
    exact ⟨rfl, hw.trans ⟨rfl, w.http.agrees_get _ hurl, hclock.symm, rfl, rfl, rfl⟩⟩

theorem keeps_folderDocument (x : Workspace) (path : String) :
    Keeps (x.Apart urls) (folderDocument path) :=
  keeps_of_congruent (congruent_folderDocument (corresponding_from x) path)

theorem keeps_remoteDocument (x : Workspace) (hurl : urls url) :
    Keeps (x.Apart urls) (remoteDocument url) :=
  keeps_of_congruent (congruent_remoteDocument (corresponding_from x) (served_from x hurl))

/-- Reading a repository of which something is missing leaves the workspace as it was, but for messages
and its address. -/
theorem apart_of_missing (h : list s x = .error f x') (hf : f.isMissing)
    (hurl : ∀ r url, x.repository? s = some r → r.identity = .remote url → urls url) :
    x.Apart urls x' := by
  obtain ⟨r, hr, -, hload⟩ := of_missing_list h hf
  have hdocument := of_missing_load hload hf
  cases hi : r.identity with
  | memory name =>
    rw [hi] at hdocument
    obtain rfl : x' = x := hdocument
    exact Workspace.apart_refl _
  | folder path =>
    rw [hi] at hdocument
    have hkeeps : Keeps (x.Apart urls) (folderDocument path) := keeps_folderDocument x path
    have hend := hkeeps (Workspace.apart_refl x)
    rwa [show folderDocument path x = _ from hdocument] at hend
  | remote url =>
    rw [hi] at hdocument
    have hend := keeps_remoteDocument x (hurl r url hr hi) (Workspace.apart_refl x)
    rwa [show remoteDocument url x = _ from hdocument] at hend

/-- What is missing at an address is missing for every repository there that was not read before. -/
theorem list_of_missing_address (h : list s x = .error f x') (hf : f.isMissing)
    (hs : x.repository? s = some r) (hr : r.identity = .remote url)
    (ht : x.repository? t = some q) (hm : q.memo = none) (hq : q.identity = .remote url) :
    list t x = .error f x' := by
  obtain ⟨r', hr', -, hload⟩ := of_missing_list h hf
  obtain rfl : r = r' := Option.some.inj (hs.symm.trans hr')
  have hdocument := of_missing_load hload hf
  rw [hr] at hdocument
  have hfails : load t q x = .error f x' := by
    unfold load
    rw [hq]
    dsimp only
    rw [loadRemote_eq]
    exact bind_of_error hdocument
  rw [list_of_unread ht hm]
  exact bind_of_error hfails

/-- What is missing at an address has been asked for there, so the address can be written. -/
theorem exists_publicText_of_missing (h : list s x = .error f x') (hf : f.isMissing)
    (hs : x.repository? s = some r) (hr : r.identity = .remote url) :
    ∃ target, Url.publicText url = .ok target := by
  obtain ⟨r', hr', -, hload⟩ := of_missing_list h hf
  obtain rfl : r = r' := Option.some.inj (hs.symm.trans hr')
  have hdocument := of_missing_load hload hf
  rw [hr] at hdocument
  cases htext : Url.publicText url with
  | ok target => exact ⟨target, rfl⟩
  | error g =>
    have hnumeral : remoteDocument url x = .error g x := by
      rw [remoteDocument, htext]
      rfl
    cases hnumeral.symm.trans hdocument
    rw [Url.eq_numeral_of_publicText htext] at hf
    cases hf

end Operation

end Provision
