import Provision.Proofs.Manifest.Loading
import Provision.Proofs.Resolution.Calls
import Provision.Proofs.Workspace.Separation

namespace Provision

open Provision.Resolution Provision.Text

variable {w : Workspace} {s : Source} {r : Repository} {f : Failure}
  {t : Except Failure (List Char × String)}

def Repository.adopting (r : Repository) (d : Manifest.Document) : Repository :=
  { r with name := match r.name with
      | some name => some name
      | none => Manifest.name? d }

def Conventions.NamesManifests (c : Conventions) : Prop :=
  ∃ names : List String, c.manifestNames.elements? = some (names.map Value.text)

theorem Repository.of_findManifest {files : FileTree} {folder : String} {vs : List Value}
    (h : findManifest? files folder vs = .error f) :
    f = .wrongType ∧ ∀ names : List String, vs ≠ names.map Value.text := by
  induction vs with
  | nil => cases h
  | cons v vs ih =>
    by_cases htext : ∃ name, v = .text name
    case pos =>
      obtain ⟨name, rfl⟩ := htext
      rw [findManifest?] at h
      split at h
      · cases h
      · obtain ⟨rfl, hnames⟩ := ih h
        refine ⟨rfl, ?_⟩
        rintro (_ | ⟨name', names⟩) heq
        · cases heq
        · exact hnames names (List.cons.inj heq).2
    case neg =>
      rw [findManifest?] at h
      · cases h
        refine ⟨rfl, ?_⟩
        rintro (_ | ⟨name, names⟩) heq
        · cases heq
        · exact htext ⟨name, (List.cons.inj heq).1⟩
      · exact nofun
      · rintro name rest heq
        exact htext ⟨name, (List.cons.inj heq).1⟩

theorem Repository.missing_of_manifestPath {files : FileTree} {c : Conventions} {path : String}
    (h : manifestPath files c path = .error f) :
    f.isMissing ∨ f = .wrongType ∧ ¬c.NamesManifests := by
  cases hfile : files.isFile path with
  | true =>
    rw [manifestPath, if_pos hfile] at h
    cases h
  | false =>
    cases hfolder : files.isFolder path with
    | false =>
      rw [manifestPath, hfile, hfolder] at h
      cases h
      exact Or.inl rfl
    | true =>
      rw [manifestPath, hfile, hfolder] at h
      simp only [Bool.false_eq_true, ↓reduceIte, Bool.not_true] at h
      cases hnames : c.manifestNames.elements? with
      | none =>
        rw [hnames] at h
        cases h
        refine Or.inr ⟨rfl, ?_⟩
        rintro ⟨names, htexts⟩
        cases hnames.symm.trans htexts
      | some vs =>
        rw [hnames] at h
        obtain h | ⟨_ | manifest, -, h⟩ := of_bind_eq_error h
        · obtain ⟨rfl, htexts⟩ := of_findManifest h
          refine Or.inr ⟨rfl, ?_⟩
          rintro ⟨names, hnames'⟩
          exact htexts names (Option.some.inj (hnames.symm.trans hnames'))
        · cases h
          exact Or.inl rfl
        · cases h

namespace Operation

/-- The text of a repository's manifest with what it is called, or why there is none. -/
inductive Manifested (w : Workspace) : Identity → Except Failure (List Char × String) → Prop where
  | absent {path f} (h : Repository.manifestPath w.files w.conventions path = .error f) :
      Manifested w (.folder path) (.error f)
  | unreadable {path manifest cause}
      (hpath : Repository.manifestPath w.files w.conventions path = .ok manifest)
      (h : w.files.read manifest = .error cause) :
      Manifested w (.folder path) (.error (.unreadable manifest cause))
  | undecodable {path manifest content}
      (hpath : Repository.manifestPath w.files w.conventions path = .ok manifest)
      (hread : w.files.read manifest = .ok content) (h : charactersOf? content = none) :
      Manifested w (.folder path) (.error .undecodable)
  | file {path manifest content cs}
      (hpath : Repository.manifestPath w.files w.conventions path = .ok manifest)
      (hread : w.files.read manifest = .ok content) (h : charactersOf? content = some cs) :
      Manifested w (.folder path) (.ok (cs, manifest))
  | unaddressed {url f} (h : Url.publicText url = .error f) : Manifested w (.remote url) (.error f)
  | unasked {url target f} (htarget : Url.publicText url = .ok target)
      (h : (w.http.get url manifestHeaders).1 = .error f) : Manifested w (.remote url) (.error f)
  | unreachable {url target reply} (htarget : Url.publicText url = .ok target)
      (hreply : (w.http.get url manifestHeaders).1 = .ok reply) (h : reply.status = 0) :
      Manifested w (.remote url) (.error (.unreachable target reply.text))
  | answered {url target reply} (htarget : Url.publicText url = .ok target)
      (hreply : (w.http.get url manifestHeaders).1 = .ok reply) (h0 : reply.status ≠ 0)
      (h : reply.status ≠ 200) :
      Manifested w (.remote url) (.error (.answered target reply.status))
  | body {url target reply} (htarget : Url.publicText url = .ok target)
      (hreply : (w.http.get url manifestHeaders).1 = .ok reply) (h : reply.status = 200) :
      Manifested w (.remote url) (.ok (characters reply.text, target))

/-- There is something about a repository for which its manifest cannot even be looked for, or there
are bytes that are no text. -/
inductive Garbled (w : Workspace) : Identity → Failure → Prop where
  | names {path} (h : ¬w.conventions.NamesManifests) : Garbled w (.folder path) .wrongType
  | bytes {path manifest content}
      (hpath : Repository.manifestPath w.files w.conventions path = .ok manifest)
      (hread : w.files.read manifest = .ok content) (h : charactersOf? content = none) :
      Garbled w (.folder path) .undecodable
  | address {url f} (h : Url.publicText url = .error f) : Garbled w (.remote url) f
  | client {url f} (husable : ¬w.http.Usable)
      (h : (w.http.get url manifestHeaders).1 = .error f) : Garbled w (.remote url) f

def documentIn (t : Except Failure (List Char × String)) : Except Failure Manifest.Document := do
  let (cs, origin) ← t
  (Manifest.load cs origin).result

theorem documentIn_ok (cs : List Char) (origin : String) :
    documentIn (.ok (cs, origin)) = (Manifest.load cs origin).result := rfl

def unitsIn (w : Workspace) (s : Source) (r : Repository) (d : Manifest.Document) :
    Except Failure (List Installable) := do
  let label ← (r.adopting d).describe
  Manifest.units w.conventions label (some s) d

/-! ### Stages -/

theorem exists_manifested (w : Workspace) {i : Identity} (hi : ∀ name, i ≠ .memory name) :
    ∃ t, Manifested w i t := by
  cases i with
  | memory name => exact absurd rfl (hi name)
  | folder path =>
    cases hpath : Repository.manifestPath w.files w.conventions path with
    | error f => exact ⟨_, .absent hpath⟩
    | ok manifest =>
      cases hread : w.files.read manifest with
      | error cause => exact ⟨_, .unreadable hpath hread⟩
      | ok content =>
        cases hcs : charactersOf? content with
        | none => exact ⟨_, .undecodable hpath hread hcs⟩
        | some cs => exact ⟨_, .file hpath hread hcs⟩
  | remote url =>
    cases htarget : Url.publicText url with
    | error f => exact ⟨_, .unaddressed htarget⟩
    | ok target =>
      cases hreply : (w.http.get url manifestHeaders).1 with
      | error f => exact ⟨_, .unasked htarget hreply⟩
      | ok reply =>
        by_cases h0 : reply.status = 0
        · exact ⟨_, .unreachable htarget hreply h0⟩
        · by_cases h200 : reply.status = 200
          · exact ⟨_, .body htarget hreply h200⟩
          · exact ⟨_, .answered htarget hreply h0 h200⟩

theorem Manifested.unique {i : Identity} {t' : Except Failure (List Char × String)}
    (h : Manifested w i t) (h' : Manifested w i t') : t = t' := by
  cases h <;> cases h' <;> simp_all

theorem Manifested.missing_or_garbled {i : Identity} (h : Manifested w i (.error f)) :
    f.isMissing ∨ Garbled w i f := by
  cases h with
  | absent h =>
    obtain hmissing | ⟨rfl, hnames⟩ := Repository.missing_of_manifestPath h
    · exact Or.inl hmissing
    · exact Or.inr (.names hnames)
  | unreadable => exact Or.inl rfl
  | undecodable hpath hread h => exact Or.inr (.bytes hpath hread h)
  | unaddressed h => exact Or.inr (.address h)
  | unasked _ h =>
    refine Or.inr (.client (fun husable => ?_) h)
    obtain ⟨reply, hreply⟩ := Http.Client.get_returns husable (k := {}) rfl _ _
    cases hreply.symm.trans h
  | unreachable => exact Or.inl rfl
  | answered => exact Or.inl rfl

theorem readFile_of_ok {path : String} {content : ByteArray} (h : w.files.read path = .ok content) :
    readFile path w = match charactersOf? content with
      | some cs => .ok cs w
      | none => .error .undecodable w := by
  rw [readFile, get_bind, h]
  dsimp only
  cases charactersOf? content <;> rfl

theorem readFile_of_error {path : String} {cause : FileError}
    (h : w.files.read path = .error cause) : readFile path w = .error (.unreadable path cause) w := by
  rw [readFile, get_bind, h]
  rfl

theorem answerOf_loadManifest (cs : List Char) (origin : String) (w : Workspace) :
    answerOf (loadManifest cs origin w) = (Manifest.load cs origin).result := by
  unfold loadManifest
  dsimp only
  cases (Manifest.load cs origin).fellBack <;> cases (Manifest.load cs origin).result <;> rfl

theorem files_note (m : Log.Record) (w : Workspace) : (w.note m).files = w.files := by
  unfold Workspace.note
  split <;> rfl

theorem http_note (m : Log.Record) (w : Workspace) : (w.note m).http = w.http := by
  unfold Workspace.note
  split <;> rfl

theorem folderDocument_of_ok {path manifest : String}
    (h : Repository.manifestPath w.files w.conventions path = .ok manifest) :
    ∃ v, v.files = w.files ∧
      folderDocument path w = (readFile manifest >>= fun cs => loadManifest cs manifest) v := by
  refine ⟨_, files_note ⟨.debug, "Reading repository manifest " ++ manifest, []⟩ w, ?_⟩
  rw [folderDocument, get_bind, h]
  rfl

theorem answerOf_folderDocument {path : String} (h : Manifested w (.folder path) t) :
    answerOf (folderDocument path w) = documentIn t := by
  cases h with
  | absent h =>
    rw [folderDocument, get_bind, h]
    rfl
  | unreadable hpath h =>
    obtain ⟨v, hv, heq⟩ := folderDocument_of_ok hpath
    rw [heq, bind_of_error (readFile_of_error (hv ▸ h))]
    rfl
  | undecodable hpath hread h =>
    obtain ⟨v, hv, heq⟩ := folderDocument_of_ok hpath
    have hend := readFile_of_ok (hv ▸ hread)
    rw [h] at hend
    rw [heq, bind_of_error hend]
    rfl
  | file hpath hread h =>
    obtain ⟨v, hv, heq⟩ := folderDocument_of_ok hpath
    have hend := readFile_of_ok (hv ▸ hread)
    rw [h] at hend
    rw [heq, bind_of_ok hend]
    exact answerOf_loadManifest _ _ _

theorem forM_returns {α : Type} {g : α → Operation PUnit} (h : ∀ a w, ∃ v, g a w = .ok () v)
    (as : List α) (w : Workspace) : ∃ v, as.forM g w = .ok () v := by
  induction as generalizing w with
  | nil => exact ⟨w, rfl⟩
  | cons a as ih =>
    obtain ⟨v, hv⟩ := h a w
    obtain ⟨v', hv'⟩ := ih v
    exact ⟨v', (bind_of_ok hv).trans hv'⟩

theorem traceEvent_returns {url target : String} (h : Url.publicText url = .ok target)
    (e : Http.Event) (w : Workspace) : ∃ v, traceEvent url e w = .ok () v := by
  have htarget : (ofExcept (.ok target) : Operation String) w = .ok target w := rfl
  rw [traceEvent, get_bind, h]
  split
  · rw [bind_of_ok htarget]
    obtain _ | ⟨message, context⟩ := eventRecord? target e
    · exact ⟨w, rfl⟩
    · exact trace_returns message ⟨context, w, rfl⟩
  · exact ⟨w, rfl⟩

theorem noted_of_publicText {τ : Type} {url target : String} (h : Url.publicText url = .ok target)
    (isTracing : Bool) : (.noted isTracing url : Http.Course τ) = {} := by
  rw [Http.Course.noted, h]
  cases isTracing <;> rfl

theorem answerOf_request {url target : String} (h : Url.publicText url = .ok target)
    (headers : Http.Headers) (w : Workspace) :
    answerOf (request url headers w) =
      (w.http.get url headers).1.map fun reply => (reply, (w.http.get url headers).2.1) := by
  obtain ⟨v, hv⟩ := forM_returns (traceEvent_returns h) (w.http.get url headers).2.1
    { w with http := (w.http.get url headers).2.2 }
  have hrequest : request url headers w = (do
      return (← ofExcept (w.http.get url headers).1, (w.http.get url headers).2.1) :
        Operation _) v := by
    rw [request, get_bind, noted_of_publicText h]
    exact bind_of_ok hv
  rw [hrequest]
  cases (w.http.get url headers).1 <;> rfl

theorem remoteDocument_of_reply {url target : String} {reply : Http.Response}
    (h : Url.publicText url = .ok target)
    (hreply : (w.http.get url manifestHeaders).1 = .ok reply) :
    ∃ v, remoteDocument url w = (do
      if reply.status = 0 then throw (.unreachable target reply.text)
      if reply.status ≠ 200 then throw (.answered target reply.status)
      loadManifest (characters reply.text) target : Operation Manifest.Document) v := by
  let noted := w.note ⟨.info, "Loading repository " ++ target ++ "...", []⟩
  have hrequest := answerOf_request h manifestHeaders noted
  rw [http_note, hreply] at hrequest
  obtain ⟨v, hv⟩ := exists_of_answerOf_eq_ok hrequest
  have htrace : ∃ fields v', (return [("event", .text "repository_fetch"),
      ("component", .text "remote_repository"), ("status_code", .int reply.status),
      ("target", .text target)] : Operation (List (String × Value))) v = .ok fields v' := ⟨_, v, rfl⟩
  obtain ⟨v', hv'⟩ := trace_returns "Repository manifest fetched" htrace
  refine ⟨v', ?_⟩
  rw [remoteDocument, h]
  exact (bind_of_ok hv).trans (bind_of_ok hv')

theorem answerOf_remoteDocument {url : String} (h : Manifested w (.remote url) t) :
    answerOf (remoteDocument url w) = documentIn t := by
  cases h with
  | unaddressed h =>
    rw [remoteDocument, h]
    rfl
  | @unasked _ target f htarget h =>
    have hrequest := answerOf_request htarget manifestHeaders
      (w.note ⟨.info, "Loading repository " ++ target ++ "...", []⟩)
    rw [http_note, h] at hrequest
    obtain ⟨v, hv⟩ := exists_of_answerOf_eq_error hrequest
    have hend : remoteDocument url w = .error f v := by
      rw [remoteDocument, htarget]
      change (request url manifestHeaders >>= _) _ = _
      exact bind_of_error hv
    rw [hend]
    rfl
  | unreachable htarget hreply h0 =>
    obtain ⟨v, hv⟩ := remoteDocument_of_reply htarget hreply
    rw [hv, if_pos h0]
    rfl
  | answered htarget hreply h0 h =>
    obtain ⟨v, hv⟩ := remoteDocument_of_reply htarget hreply
    rw [hv, if_neg h0, if_pos h]
    rfl
  | body htarget hreply h =>
    obtain ⟨v, hv⟩ := remoteDocument_of_reply htarget hreply
    rw [hv]
    simp only [h]
    exact answerOf_loadManifest _ _ _

theorem answerOf_unitsOf (hs : w.repository? s = some r) (d : Manifest.Document) :
    answerOf (unitsOf s d w) = unitsIn w s r d := by
  have hadopted : (w.modifyRepository s (·.adopting d)).repository? s = some (r.adopting d) := by
    rw [Workspace.repository?_modify, if_pos rfl, hs]
    rfl
  have hdescribe : describe s (w.modifyRepository s (·.adopting d)) =
      ofExcept (r.adopting d).describe (w.modifyRepository s (·.adopting d)) := by
    rw [describe, get_bind, hadopted]
  have hunits : unitsOf s d w = (do
      let label ← describe s
      let units ← ofExcept (Manifest.units (← get).conventions label (some s) d)
      log .debug ("Parsed " ++ toString units.length ++ " units from " ++ label)
      return units : Operation _) (w.modifyRepository s (·.adopting d)) := rfl
  rw [hunits, unitsIn]
  cases hlabel : (r.adopting d).describe with
  | error f =>
    rw [hlabel] at hdescribe
    rw [bind_of_error hdescribe]
    rfl
  | ok label =>
    rw [hlabel] at hdescribe
    rw [bind_of_ok hdescribe, get_bind]
    change _ = Manifest.units w.conventions label (some s) d
    dsimp only [Workspace.modifyRepository]
    cases Manifest.units w.conventions label (some s) d <;> rfl

/-- Reading a repository ends as its manifest says. -/
theorem answerOf_load (hs : w.repository? s = some r) (ht : Manifested w r.identity t) :
    answerOf (load s r w) = documentIn t >>= unitsIn w s r := by
  have hread {document : Operation Manifest.Document} (hdocument : answerOf (document w) = documentIn t)
      (hkeeps : Keeps (w.Apart fun _ => True) document) :
      answerOf ((document >>= unitsOf s) w) = documentIn t >>= unitsIn w s r := by
    have hend := hkeeps (Workspace.apart_refl w)
    rw [← hdocument]
    cases hd : document w with
    | error f v =>
      rw [bind_of_error hd]
      rfl
    | ok d v =>
      rw [hd] at hend
      have hv : v.repository? s = some r := (hend.repository s).symm.trans hs
      have hconventions : v.conventions = w.conventions := hend.conventions.symm
      rw [bind_of_ok hd, answerOf_unitsOf hv]
      change unitsIn v s r d = unitsIn w s r d
      rw [unitsIn, hconventions, unitsIn]
  unfold load
  cases hi : r.identity with
  | memory name =>
    rw [hi] at ht
    cases ht
  | folder path =>
    rw [hi] at ht
    dsimp only
    rw [loadFolder_eq]
    exact hread (answerOf_folderDocument ht) (keeps_folderDocument w path)
  | remote url =>
    rw [hi] at ht
    dsimp only
    rw [loadRemote_eq]
    exact hread (answerOf_remoteDocument ht) (keeps_remoteDocument w trivial)

theorem Manifested.exists_publicText {m : List Char × String} {i : Identity}
    (h : Manifested w i (.ok m)) (url : String) (hi : i = .remote url) :
    ∃ target, Url.publicText url = .ok target := by
  cases h with
  | file => cases hi
  | body htarget =>
    cases hi
    exact ⟨_, htarget⟩

/-- A repository that was not read lists what its manifest says. -/
theorem answerOf_list (hs : w.repository? s = some r) (hm : r.memo = none)
    (ht : Manifested w r.identity t) : answerOf (list s w) = documentIn t >>= unitsIn w s r := by
  have hload := answerOf_load hs ht
  have hstart : (w.repository? s).map Repository.identity = some r.identity := by
    rw [hs, Option.map_some]
  have hidentity := keeps_load (Workspace.lasting_identity s (some r.identity)) s r hstart
  rw [list_of_unread hs hm, fetch, ← hload]
  cases hl : load s r w with
  | error f v => rw [bind_of_error hl]
  | ok units v =>
    rw [hl] at hload hidentity
    obtain ⟨q, hq, hqr⟩ : ∃ q, v.repository? s = some q ∧ q.identity = r.identity :=
      Option.map_eq_some_iff.mp hidentity
    obtain ⟨m, rfl⟩ : ∃ m, t = .ok m := by
      cases t with
      | ok m => exact ⟨m, rfl⟩
      | error f => cases hload
    obtain ⟨v', hv'⟩ := remember_returns hq (fun url hi => ht.exists_publicText url (hqr ▸ hi)) units
    rw [bind_of_ok hl, bind_of_ok hv']
    rfl

end Operation

end Provision
