import Provision.Proofs.Manifest.Acceptance
import Provision.Proofs.Workspace.Document

namespace Provision

open Provision.Resolution Provision.Text

namespace Operation

variable {w : Workspace} {s : Source} {r : Repository} {f : Failure}
  {t : Except Failure (List Char × String)}

def verdict (q : Requirement) : Except Failure (List Installable) → Except Failure Probe
  | .ok units =>
    match units.find? (·.satisfies q) with
    | some u => .ok (.found u)
    | none => .ok .absent
  | .error f => if f.isMissing then .ok (.failed f) else .error f

/-- What a repository lists, by the text of its manifest, unless it was read before. -/
def listed (w : Workspace) (s : Source) (r : Repository) (t : Except Failure (List Char × String)) :
    Except Failure (List Installable) :=
  match r.memo with
  | some units => .ok units
  | none => documentIn t >>= unitsIn w s r

/-- What leaves the probe of a repository: what is garbled, a text that makes up no document, or an
entry of a document, which is malformed at worst where all of them are orderly. -/
inductive Escapes (w : Workspace) (s : Source) (r : Repository)
    (t : Except Failure (List Char × String)) : Failure → Prop where
  | garbled {f : Failure} (h : Garbled w r.identity f) : Escapes w s r t f
  | unbuilt {cs : List Char} {origin : String} {f : Failure} (ht : t = .ok (cs, origin))
      (h : Manifest.Unbuilt cs origin f) : Escapes w s r t f
  | entry {d : Manifest.Document} {label : String} {f : Failure} (hd : documentIn t = .ok d)
      (hlabel : (r.adopting d).describe = .ok label)
      (h : Manifest.units w.conventions label (some s) d = .error f)
      (hrejects : f.RejectsGiven (w.conventions.unitNamespace.isWritable ∧
        ∀ vs, Manifest.Lists "units" d vs → ∀ v ∈ vs, Manifest.OrderlyUnit v)) : Escapes w s r t f

/-- Nothing is garbled about a repository, its manifest makes up a document if it has the form of one,
and all entries are orderly. -/
structure Sound (w : Workspace) (i : Identity) (t : Except Failure (List Char × String)) : Prop where
  ungarbled : ∀ f, ¬Garbled w i f
  built : ∀ cs origin f, t = .ok (cs, origin) → ¬Manifest.Unbuilt cs origin f
  namespaceName : w.conventions.unitNamespace.isWritable
  orderly : ∀ d, documentIn t = .ok d →
    ∀ vs, Manifest.Lists "units" d vs → ∀ v ∈ vs, Manifest.OrderlyUnit v

theorem answerOf_probe (hs : w.repository? s = some r) (ht : Manifested w r.identity t)
    (q : Requirement) : answerOf (access.probe s q w) = verdict q (listed w s r t) := by
  have hlist : answerOf (access.list s w) = listed w s r t := by
    change answerOf (list s w) = _
    unfold listed
    cases hm : r.memo with
    | none => exact answerOf_list hs hm ht
    | some units =>
      rw [list_of_memo hs hm]
      rfl
  rw [← hlist]
  unfold Access.probe
  cases access.list s w with
  | ok units v =>
    dsimp only [answerOf, verdict]
    cases units.find? (·.satisfies q) <;> rfl
  | error f v =>
    dsimp only [answerOf, verdict]
    cases f.isMissing <;> rfl

theorem escapes_of_listed (ht : Manifested w r.identity t) (h : listed w s r t = .error f) :
    f.isMissing ∨ Escapes w s r t f := by
  unfold listed at h
  split at h
  · cases h
  · obtain hd | ⟨d, hd, hunits⟩ := of_bind_eq_error h
    · obtain rfl | ⟨m, rfl, hd⟩ : t = .error f ∨ ∃ m, t = .ok m ∧
          (Manifest.load m.1 m.2).result = .error f := of_bind_eq_error hd
      · exact ht.missing_or_garbled.imp_right .garbled
      · exact (Manifest.missing_or_unbuilt_of_load hd).imp_right (.unbuilt rfl)
    · obtain ⟨m, rfl, hload⟩ : ∃ m, t = .ok m ∧ (Manifest.load m.1 m.2).result = .ok d :=
        bind_eq_ok_iff.mp hd
      obtain hlabel | ⟨label, hlabel, hunits⟩ := of_bind_eq_error hunits
      · obtain ⟨name, hname⟩ : ∃ name, (r.adopting d).describe = .ok name :=
          Repository.exists_name fun url hi => ht.exists_publicText url hi
        cases hlabel.symm.trans hname
      · obtain ⟨v, hv⟩ := Manifest.exists_documentOf_of_load hload
        obtain ⟨vs, hvs⟩ := Manifest.lists_of_documentOf hv
        have hrejects := Manifest.blames_units _ _ _ _ hunits
        exact Or.inr (.entry hd hlabel hunits
          ⟨hrejects.1, fun ⟨hc, horderly⟩ => hrejects.2 ⟨hc, vs, hvs, horderly vs hvs⟩⟩)

theorem Sound.malformed_of_escapes (h : Sound w r.identity t) (hf : Escapes w s r t f) :
    f.kind = .malformed := by
  cases hf with
  | garbled hgarbled => exact absurd hgarbled (h.ungarbled f)
  | unbuilt ht hunbuilt => exact absurd hunbuilt (h.built _ _ f ht)
  | entry hd _ _ hrejects => exact hrejects.2 ⟨h.namespaceName, h.orderly _ hd⟩

theorem error_of_verdict {q : Requirement} {e : Except Failure (List Installable)}
    (h : verdict q e = .error f) : e = .error f ∧ f.isMissing = false := by
  cases e with
  | ok units =>
    dsimp only [verdict] at h
    split at h <;> cases h
  | error g =>
    dsimp only [verdict] at h
    split at h
    · cases h
    · rename_i hg
      cases h
      exact ⟨rfl, Bool.eq_false_iff.mpr hg⟩

/-- A repository in a folder or behind an address is probed as its manifest says. What is missing, or
can be parsed neither way, is a failed probe; what leaves the probe instead is garbled or unbuilt, or
the entry of a document, and nothing but a malformed entry where the repository is sound. -/
theorem probe_of_manifested (hs : w.repository? s = some r)
    (hi : ∀ name, r.identity ≠ .memory name) (q : Requirement) :
    ∃ t, Manifested w r.identity t ∧
      answerOf (access.probe s q w) = verdict q (listed w s r t) ∧
      (r.memo = none → ∀ f, t = .error f → ¬Garbled w r.identity f →
        answerOf (access.probe s q w) = .ok (.failed f)) ∧
      (r.memo = none → ∀ cs origin, t = .ok (cs, origin) → Manifest.IsUnparsable cs origin →
        answerOf (access.probe s q w) =
          .ok (.failed (.unparsable origin (Manifest.language origin)))) ∧
      (∀ f, answerOf (access.probe s q w) = .error f → Escapes w s r t f) ∧
      (Sound w r.identity t → ∀ f, answerOf (access.probe s q w) = .error f →
        f.kind = .malformed) := by
  obtain ⟨t, ht⟩ := exists_manifested w hi
  have hprobe := answerOf_probe hs ht q
  have hescapes (f : Failure) (hf : answerOf (access.probe s q w) = .error f) : Escapes w s r t f := by
    obtain ⟨herror, hmissing⟩ := error_of_verdict (hprobe.symm.trans hf)
    obtain h | h := escapes_of_listed ht herror
    · rw [hmissing] at h
      cases h
    · exact h
  refine ⟨t, ht, hprobe, fun hm f hf hgarbled => ?_, fun hm cs origin hcs hunparsable => ?_, hescapes,
    fun hsound f hf => hsound.malformed_of_escapes (hescapes f hf)⟩
  · subst hf
    have hmissing := ht.missing_or_garbled.resolve_right hgarbled
    rw [hprobe, listed, hm]
    exact if_pos hmissing
  · subst hcs
    have hdocument : documentIn (.ok (cs, origin)) =
        .error (.unparsable origin (Manifest.language origin)) :=
      Manifest.load_of_isUnparsable hunparsable
    rw [hprobe, listed, hm]
    dsimp only
    rw [hdocument]
    rfl

namespace Sample

def shelf (content : ByteArray) : Workspace where
  files := { entries := [(["units.json"], .file content)] }
  repositories := #[{ identity := .folder "/units.json" }]

def shelved : Source := ⟨.folder "/units.json", 0⟩

def wanted : Requirement := { namespaceName := "java.package", name := "p" }

def keyless : Manifest.Document := [(.text "units", .list [.map []])]

def keylessText : List Char := "\x7b\"units\":[\x7b\x7d]\x7d".toList

def keylessBytes : ByteArray :=
  ⟨#[0x7b, 0x22, 0x75, 0x6e, 0x69, 0x74, 0x73, 0x22, 0x3a, 0x5b, 0x7b, 0x7d, 0x5d, 0x7d]⟩

end Sample

open Sample

theorem locate_shelf (content : ByteArray) :
    (shelf content).files.locate "/units.json" = .ok ["units.json"] := by
  have hstart : (shelf content).files.start "/units.json" = [] := if_pos (by simp)
  have hpath : FileTree.checkPath "/units.json" = .ok "/units.json" := rfl
  rw [FileTree.locate, hpath]
  change (shelf content).files.walk ((shelf content).files.start "/units.json") _ = _
  rw [hstart]
  rfl

theorem read_shelf (content : ByteArray) :
    (shelf content).files.read "/units.json" = .ok content := by
  rw [FileTree.read, locate_shelf]
  rfl

theorem manifestPath_shelf (content : ByteArray) :
    Repository.manifestPath (shelf content).files (shelf content).conventions "/units.json" =
      .ok "/units.json" := by
  have hfile : (shelf content).files.isFile "/units.json" := by
    rw [FileTree.isFile, FileTree.lookup?, locate_shelf]
    rfl
  rw [Repository.manifestPath, if_pos hfile]
  rfl

theorem manifested_shelf {content : ByteArray} {cs : List Char}
    (h : charactersOf? content = some cs) :
    Manifested (shelf content) (.folder "/units.json") (.ok (cs, "/units.json")) :=
  .file (manifestPath_shelf content) (read_shelf content) h

theorem keylessText_eq : keylessText =
    ['\x7b', '"', 'u', 'n', 'i', 't', 's', '"', ':', '[', '\x7b', '\x7d', ']', '\x7d'] := by
  decide

theorem read_keyless : Json.read .asText keylessText = .ok (.map keyless) := by
  rw [keylessText_eq]
  rfl

theorem documentIn_keyless : documentIn (.ok (keylessText, "/units.json")) = .ok keyless := by
  have hname : Manifest.isJsonName "/units.json" = true := by decide
  have hdocument : Manifest.documentOf "/units.json" (.map keyless) = .ok keyless := rfl
  rw [documentIn_ok, Manifest.load, if_pos hname, Manifest.readJson, read_keyless]
  exact hdocument

theorem sound_keyless :
    Sound (shelf keylessBytes) (.folder "/units.json") (.ok (keylessText, "/units.json")) := by
  refine ⟨fun f hf => ?_, fun cs origin f ht hf => ?_, rfl, fun d hd vs hvs => ?_⟩
  · cases hf with
    | names hnames => exact hnames ⟨["units.yaml", "units.yml", "units.json"], rfl⟩
    | bytes hpath hread hnone =>
      have hfile : Manifested (shelf keylessBytes) _ (.ok (keylessText, _)) :=
        manifested_shelf (by decide)
      cases hfile.unique (.undecodable hpath hread hnone)
  · obtain ⟨rfl, rfl⟩ : keylessText = cs ∧ "/units.json" = origin := Prod.mk.inj (Except.ok.inj ht)
    cases hf with
    | yaml hname => exact absurd hname (by decide)
    | numeral h | tooDeep h => cases read_keyless.symm.trans h
  · obtain rfl : keyless = d := Except.ok.inj (documentIn_keyless.symm.trans hd)
    obtain rfl : vs = [.map []] := hvs.unique rfl
    refine List.forall_mem_singleton.mpr ⟨rfl, ?_⟩
    rintro _ ⟨⟩
    exact ⟨trivial, ⟨[], .none rfl, List.forall_mem_nil _⟩, ⟨[], .none rfl, List.forall_mem_nil _⟩,
      ⟨[], .none rfl, List.forall_mem_nil _⟩⟩

/-- A file of which the only byte is an opening brace is no manifest, and fails the probe. An entry
without keys is malformed, and that leaves the probe. -/
theorem probe_of_manifested_keyless :
    answerOf (access.probe shelved wanted (shelf ⟨#[0x7b]⟩)) =
        .ok (.failed (.unparsable "/units.json" "json")) ∧
      Sound (shelf keylessBytes) (.folder "/units.json") (.ok (keylessText, "/units.json")) ∧
      ∃ f, answerOf (access.probe shelved wanted (shelf keylessBytes)) = .error f ∧
        f.kind = .malformed := by
  have hs (content : ByteArray) :
      (shelf content).repository? shelved = some { identity := .folder "/units.json" } := rfl
  refine ⟨?_, sound_keyless, .unitKeys "/units.json unit #0", ?_⟩
  · obtain ⟨t, ht, -, -, hunparsable, -⟩ := probe_of_manifested (hs ⟨#[0x7b]⟩) nofun wanted
    exact hunparsable rfl _ _ (ht.unique (manifested_shelf rfl)) ⟨rfl, nofun⟩
  · obtain ⟨t, ht, hprobe, -, -, -, hmalformed⟩ := probe_of_manifested (hs keylessBytes) nofun wanted
    have hcs : charactersOf? keylessBytes = some keylessText := by decide
    obtain rfl := ht.unique (manifested_shelf hcs)
    have hunits : unitsIn (shelf keylessBytes) shelved { identity := .folder "/units.json" } keyless =
        .error (.unitKeys "/units.json unit #0") := rfl
    have hlisted : listed (shelf keylessBytes) shelved { identity := .folder "/units.json" }
        (.ok (keylessText, "/units.json")) = .error (.unitKeys "/units.json unit #0") := by
      rw [listed]
      dsimp only
      rw [documentIn_keyless]
      exact hunits
    have herror : answerOf (access.probe shelved wanted (shelf keylessBytes)) =
        .error (.unitKeys "/units.json unit #0") := by
      rw [hprobe, hlisted]
      rfl
    exact ⟨herror, hmalformed sound_keyless _ herror⟩

/-- A file of which the only byte begins no character has no units that could be malformed, but leaves
the probe. -/
theorem not_malformed_of_undecodable :
    ¬∀ (w : Workspace) (s : Source) (r : Repository) (q : Requirement) (f : Failure),
      w.repository? s = some r → (∀ name, r.identity ≠ .memory name) →
        answerOf (access.probe s q w) = .error f → f.kind = .malformed := by
  intro hall
  have hs : (shelf ⟨#[0xff]⟩).repository? shelved = some { identity := .folder "/units.json" } := rfl
  have ht : Manifested (shelf ⟨#[0xff]⟩) (.folder "/units.json") (.error .undecodable) :=
    .undecodable (manifestPath_shelf _) (read_shelf _) rfl
  cases hall _ _ _ wanted _ hs nofun (answerOf_probe hs ht wanted)

end Operation

end Provision
