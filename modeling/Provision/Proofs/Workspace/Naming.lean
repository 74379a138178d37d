import Provision.Proofs.Workspace.Retrying

namespace Provision

open Provision.Resolution Provision.Operation Provision.Text

variable {s : Source} {w v x z : Workspace} {r : Repository} {f : Failure}
  {t : Except Failure (List Char × String)}

/-- A repository after its manifest was read to no avail. -/
def Repository.leftBy (r : Repository) (t : Except Failure (List Char × String)) : Repository :=
  match documentIn t with
  | .ok d => r.adopting d
  | .error _ => r

namespace Repository

theorem leftBy_of_ok {d : Manifest.Document} (h : documentIn t = .ok d) (r : Repository) :
    r.leftBy t = r.adopting d := by
  rw [leftBy, h]

theorem leftBy_of_error (h : documentIn t = .error f) (r : Repository) : r.leftBy t = r := by
  rw [leftBy, h]

theorem leftBy_eq (r : Repository) (t : Except Failure (List Char × String)) :
    r.leftBy t = { r with name := (r.leftBy t).name } := by
  cases h : documentIn t with
  | ok d => rw [leftBy_of_ok h, adopting]
  | error f => rw [leftBy_of_error h]

theorem leftBy_eq_self (h : ∀ d, documentIn t = .ok d → r.name = none → Manifest.name? d = none) :
    r.leftBy t = r := by
  cases ht : documentIn t with
  | error f => exact leftBy_of_error ht r
  | ok d =>
    have hname : (r.adopting d).name = r.name := by
      have hnone := h d ht
      unfold adopting
      cases hr : r.name with
      | none => exact hnone hr
      | some name => rfl
    rw [leftBy_eq, leftBy_of_ok ht, hname]

end Repository

namespace Workspace

theorem modifyRepository_eq_self {g : Repository → Repository} (hs : w.repository? s = some r)
    (hg : g r = r) : w.modifyRepository s g = w := by
  obtain ⟨files, http, conventions, repositories, threshold, log⟩ := w
  have hmodify : repositories.modify s.handle g = repositories := by
    apply Array.ext_getElem?
    intro i
    rw [Array.getElem?_modify]
    by_cases hi : s.handle = i
    · subst hi
      have hr : repositories[s.handle]? = some r := hs
      rw [if_pos rfl, hr, Option.map_some, hg]
    · rw [if_neg hi]
  rw [modifyRepository, hmodify]

theorem Apart.replace (h : x.Apart (fun _ => True) z) (files : FileTree) (client : Http.Client Float) :
    ({ x with files := files, http := client }).Apart (fun _ => False)
      { z with files := files, http := client } :=
  ⟨rfl, client.agrees_refl, rfl, h.conventions, h.repositories, h.threshold⟩

end Workspace

namespace Operation

theorem eq_of_unitsOf_error {d : Manifest.Document} (h : unitsOf s d w = .error f v) :
    v = w.modifyRepository s (·.adopting d) := by
  -- The name is taken over first; from there on the workspace is looked at only.
  obtain hadopt | ⟨_, w₁, hadopt, hrest⟩ := of_bind_error h
  · cases hadopt
  obtain rfl : w.modifyRepository s (·.adopting d) = w₁ := by
    cases hadopt
    rfl
  generalize w.modifyRepository s (·.adopting d) = renamed at hrest ⊢
  have hdescribe : endWorld (describe s renamed) = renamed := keeps_describe (P := (· = renamed)) s rfl
  obtain hlabel | ⟨label, w₂, hlabel, hlisted⟩ := of_bind_error hrest
  · rwa [hlabel] at hdescribe
  · rw [hlabel] at hdescribe
    obtain rfl : w₂ = renamed := hdescribe
    rw [get_bind] at hlisted
    obtain hunits | ⟨units, w₃, -, hnoted⟩ := of_bind_error hlisted
    · have hkept : Keeps (· = w₂) (ofExcept (Manifest.units w₂.conventions label (some s) d)) :=
        keeps_of_congruent (congruent_ofExcept _)
      have hend := hkept rfl
      rwa [hunits] at hend
    · cases hnoted

theorem apart_of_document_error {document : Operation Manifest.Document}
    (hdocument : answerOf (document w) = documentIn t)
    (hkeeps : Keeps (w.Apart fun _ => True) document) (hs : w.repository? s = some r)
    (h : (document >>= unitsOf s) w = .error f v) :
    (w.modifyRepository s (·.leftBy t)).Apart (fun _ => True) v := by
  have hend := hkeeps (Workspace.apart_refl w)
  obtain h | ⟨d, w₁, hread, h⟩ := of_bind_error h
  · rw [h] at hend hdocument
    rwa [Workspace.modifyRepository_eq_self hs (Repository.leftBy_of_error hdocument.symm r)]
  · rw [hread] at hend hdocument
    have hleft : (Repository.leftBy · t) = (Repository.adopting · d) :=
      funext fun q => Repository.leftBy_of_ok hdocument.symm q
    rw [eq_of_unitsOf_error h, hleft]
    exact hend.modify s _

/-- A repository that could not be read is as it was but for its name, and the others are as they
were. -/
theorem apart_of_list_error (hs : w.repository? s = some r) (hi : ∀ name, r.identity ≠ .memory name)
    (ht : Manifested w r.identity t) (h : list s w = .error f v) :
    (w.modifyRepository s (·.leftBy t)).Apart (fun _ => True) v := by
  obtain ⟨-, hload⟩ := list_error_of_load hs hi h
  unfold load at hload
  cases hidentity : r.identity with
  | memory name => exact absurd hidentity (hi name)
  | folder path =>
    rw [hidentity] at ht hload
    dsimp only at hload
    rw [loadFolder_eq] at hload
    exact apart_of_document_error (answerOf_folderDocument ht) (keeps_folderDocument w path) hs hload
  | remote url =>
    rw [hidentity] at ht hload
    dsimp only at hload
    rw [loadRemote_eq] at hload
    exact apart_of_document_error (answerOf_remoteDocument ht) (keeps_remoteDocument w trivial) hs
      hload

/-- A load that fails leaves every repository as it was, identity and remembered units included, but
that one which had no name has the one in its manifest if that was read. Whatever the files and the
client are later, a load then ends as it does where that name was there before, so that it ends as if
there had been none where no name was left. -/
theorem left_of_list_error (hs : w.repository? s = some r) (hi : ∀ name, r.identity ≠ .memory name)
    (h : list s w = .error f v) :
    ∃ t, Manifested w r.identity t ∧
      v.repositories = (w.modifyRepository s (·.leftBy t)).repositories ∧
      r.memo = none ∧ r.leftBy t = { r with name := (r.leftBy t).name } ∧
      ((∀ d, documentIn t = .ok d → r.name = none → Manifest.name? d = none) →
        w.modifyRepository s (·.leftBy t) = w) ∧
      ∀ files client, SameEnd (Workspace.Apart fun _ => False)
        (list s { w.modifyRepository s (·.leftBy t) with files := files, http := client })
        (list s { v with files := files, http := client }) := by
  obtain ⟨t, ht⟩ := exists_manifested w hi
  have hapart := apart_of_list_error hs hi ht h
  refine ⟨t, ht, hapart.repositories.symm, (list_error_of_load hs hi h).1, r.leftBy_eq t,
    fun hnone => ?_, fun files client => ?_⟩
  · exact Workspace.modifyRepository_eq_self hs (Repository.leftBy_eq_self hnone)
  · exact (hapart.symm.replace files client).list s fun _ _ _ _ _ => not_false

namespace Sample

def misshapen : Manifest.Document := (.text "name", .text "bad") :: keyless

def misshapenText : List Char := "\x7b\"name\":\"bad\",\"units\":[\x7b\x7d]\x7d".toList

def misshapenBytes : ByteArray := ⟨(misshapenText.map fun c => UInt8.ofNat c.toNat).toArray⟩

def unnamed : Repository := { identity := .folder "/units.json" }

def misnamed : Repository := { unnamed with name := some "bad" }

end Sample

open Sample

theorem documentIn_misshapen : documentIn (.ok (misshapenText, "/units.json")) = .ok misshapen := by
  have hname : Manifest.isJsonName "/units.json" = true := by decide
  have htext : misshapenText = ['\x7b', '"', 'n', 'a', 'm', 'e', '"', ':', '"', 'b', 'a', 'd', '"', ',',
      '"', 'u', 'n', 'i', 't', 's', '"', ':', '[', '\x7b', '\x7d', ']', '\x7d'] := by
    decide
  have hread : Json.read .asText misshapenText = .ok (.map misshapen) := by
    rw [htext]
    rfl
  rw [documentIn_ok, Manifest.load, if_pos hname, Manifest.readJson, hread]
  rfl

theorem manifested_misshapen :
    Manifested (shelf misshapenBytes) (.folder "/units.json") (.ok (misshapenText, "/units.json")) :=
  manifested_shelf (by decide)

theorem list_shelf_misshapen : ∃ f v, list shelved (shelf misshapenBytes) = .error f v := by
  have hs : (shelf misshapenBytes).repository? shelved = some unnamed := rfl
  have hlist := answerOf_list hs rfl manifested_misshapen
  rw [documentIn_misshapen] at hlist
  obtain ⟨v, hv⟩ := exists_of_answerOf_eq_error hlist
  exact ⟨_, v, hv⟩

theorem modifyRepository_misshapen :
    (shelf misshapenBytes).modifyRepository shelved (·.leftBy (.ok (misshapenText, "/units.json"))) =
      { shelf misshapenBytes with repositories := #[misnamed] } := by
  have hadopt : (Repository.leftBy · (.ok (misshapenText, "/units.json"))) =
      (Repository.adopting · misshapen) :=
    funext fun q => Repository.leftBy_of_ok documentIn_misshapen q
  rw [hadopt]
  rfl

theorem left_of_list_error_misshapen : ∃ f v, list shelved (shelf misshapenBytes) = .error f v ∧
    v.repositories = #[misnamed] ∧
    answerOf (list shelved { v with files := (shelf stockedBytes).files }) = .ok [stock] := by
  have hs : (shelf misshapenBytes).repository? shelved = some unnamed := rfl
  obtain ⟨f, v, hv⟩ := list_shelf_misshapen
  obtain ⟨t, ht, hleft, -, -, -, hlater⟩ := left_of_list_error hs nofun hv
  obtain rfl := ht.unique manifested_misshapen
  rw [modifyRepository_misshapen] at hleft hlater
  refine ⟨f, v, hv, hleft, ?_⟩
  let repaired : Workspace :=
    { files := (shelf stockedBytes).files, http := v.http, repositories := #[misnamed] }
  have hr : repaired.repository? shelved = some misnamed := rfl
  have ht : Manifested repaired misnamed.identity (.ok (stockedText, "/units.json")) :=
    .file (manifestPath_shelf stockedBytes) (read_shelf stockedBytes) (by decide)
  have hlist := answerOf_list hr rfl ht
  rw [documentIn_stocked (by decide)] at hlist
  exact (answerOf_of_sameEnd (hlater _ v.http)).symm.trans hlist

theorem not_called_as_before : ¬∀ (w v : Workspace) (s : Source) (r : Repository) (f : Failure),
    w.repository? s = some r → (∀ name, r.identity ≠ .memory name) → list s w = .error f v →
      answerOf (describe s v) = answerOf (describe s w) := by
  intro hall
  obtain ⟨f, v, hv⟩ := list_shelf_misshapen
  have hs : (shelf misshapenBytes).repository? shelved = some unnamed := rfl
  have hsame := hall _ v shelved _ f hs nofun hv
  have hapart := apart_of_list_error hs nofun manifested_misshapen hv
  rw [modifyRepository_misshapen] at hapart
  have hr : v.repository? shelved = some misnamed := (hapart.repository shelved).symm
  rw [describe, get_bind, get_bind, hr, hs] at hsame
  have hcalled : "bad@/units.json" = "/units.json" := Except.ok.inj hsame
  exact absurd hcalled (by decide)

end Operation

end Provision
