import Provision.Proofs.Csv
import Provision.Proofs.FileTree
import Provision.Proofs.Json.Written
import Provision.Proofs.Resolution.Reporting
import Provision.Proofs.Workspace.Document
import Provision.Workspace.Export

namespace Provision

open Provision.Resolution Provision.Text

/-! ### Exported files -/

def FileTree.Holds (t : FileTree) (path text : String) : Prop :=
  ∃ bytes, t.read path = .ok bytes ∧ String.fromUTF8? bytes = some text

namespace Operation

theorem encodePieces_held (pieces : List String) :
    encodePieces (pieces.map held) = ((String.join pieces).toUTF8, none) := by
  induction pieces with
  | nil => rfl
  | cons piece pieces ih =>
    rw [List.map_cons, encodePieces, encode_held, ih, String.join_cons]
    exact congrArg (·, none) String.toByteArray_append.symm

theorem writeFile_of_target {w : Workspace} {path : String} {place : List String}
    (hpath : w.files.target path = .ok place) (content : ByteArray) :
    ∃ files : FileTree, writeFile path content w = .ok () { w with files := files } ∧
      files.read path = .ok content ∧ files.target path = .ok place := by
  obtain ⟨files, hwrite, hread, htarget⟩ := FileTree.read_write content hpath
  refine ⟨files, ?_, hread, htarget⟩
  rw [writeFile, get_bind, hwrite]
  rfl

theorem exists_written {w : Workspace} {path : String} {place : List String}
    (hpath : w.files.target path = .ok place) (pieces : List String) (message : String) :
    ∃ w', (do writePieces path (pieces.map held); log .info message) w = .ok () w' ∧
      w'.files.Holds path (String.join pieces) := by
  obtain ⟨files, hwrite, hread, -⟩ := writeFile_of_target hpath (String.join pieces).toUTF8
  have hwritten : writePieces path (pieces.map held) w = .ok () { w with files := files } := by
    unfold writePieces
    rw [encodePieces_held]
    exact bind_of_ok hwrite
  refine ⟨_, bind_of_ok hwritten, _, ?_, dif_pos (String.join pieces).isValidUTF8⟩
  rw [files_note]
  exact hread

theorem exists_fault {w : Workspace} {path : String} {place pieces : List String} {fault : Unencodable}
    (hpath : w.files.target path = .ok place) (hfault : (encodePieces pieces).2 = some fault) :
    ∃ w', writePieces path pieces w = .error (.unencodable fault) w' := by
  obtain ⟨files, hwrite, -⟩ := writeFile_of_target hpath (encodePieces pieces).1
  refine ⟨{ w with files := files }, ?_⟩
  unfold writePieces
  refine (bind_of_ok hwrite).trans ?_
  rw [hfault]
  rfl

theorem labels_of_files {w : Workspace} {u : Installable} {label : Option String}
    (h : Labels access w u label) (files : FileTree) :
    Labels access { w with files := files } u label := by
  cases h with
  | unowned h => exact .unowned h
  | @owned s label h hlabel =>
    refine .owned h ?_
    have hrepository : Workspace.repository? { w with files := files } s = w.repository? s := rfl
    change describe s w = _ at hlabel
    change describe s _ = _
    rw [describe, get_bind] at hlabel ⊢
    rw [hrepository]
    cases hr : w.repository? s with
    | none =>
      rw [hr] at hlabel
      cases hlabel
      rfl
    | some r =>
      rw [hr] at hlabel
      dsimp only at hlabel ⊢
      cases hname : r.describe with
      | error f =>
        rw [hname] at hlabel
        cases hlabel
      | ok name =>
        rw [hname] at hlabel
        cases hlabel
        rfl

end Operation

/-! ### Documents -/

namespace Report

/-- All texts of a report are made of characters, so that they can be encoded. -/
structure IsEncodable (r : Report) : Prop where
  units : ∀ u ∈ r.units, IsWhole u.id ∧ IsWhole u.version ∧ ∀ s ∈ u.repository, IsWhole s
  bundles : ∀ b ∈ r.bundles, IsWhole b.id ∧ IsWhole b.version.text ∧ IsWhole b.location
  features : ∀ f ∈ r.features, IsWhole f.id ∧ IsWhole f.version.text ∧ IsWhole f.location
  failed : ∀ q ∈ r.failed,
    IsWhole q.namespaceName ∧ IsWhole q.name ∧ IsWhole q.range.text

variable {r : Report} {n : Nat}

theorem isDocument_object {fields : List (String × Value)} (keys : List String)
    (hfields : fields.map Prod.fst = keys) (hkeys : keys.Nodup ∧ ∀ s ∈ keys, mark ∉ s.toList)
    (h : ∀ f ∈ fields, Json.IsDocument n f.2) : Json.IsDocument (n + 1) (object fields) := by
  subst hfields
  obtain ⟨hnodup, hproper⟩ := hkeys
  refine .map ?_ (fun e he => ?_) fun e he => ?_
  · have htexts : ((fields.map Prod.fst).map Value.text).Nodup := hnodup.map fun _ _ => Value.text.inj
    rw [List.map_map] at htexts ⊢
    exact htexts
  · obtain ⟨f, hf, rfl⟩ := List.mem_map.mp he
    exact ⟨f.1, rfl, isWhole_of_not_mem (hproper f.1 (List.mem_map_of_mem hf))⟩
  · obtain ⟨f, hf, rfl⟩ := List.mem_map.mp he
    exact h f hf

theorem isDocument_unitValue {u : ReportedUnit}
    (h : IsWhole u.id ∧ IsWhole u.version ∧ ∀ s ∈ u.repository, IsWhole s) :
    Json.IsDocument (n + 1) (unitValue u) := by
  have hrepository : Json.IsDocument n ((u.repository.map Value.text).getD .null) := by
    cases hu : u.repository with
    | none => exact .null n
    | some s => exact .text n (h.2.2 s hu)
  refine isDocument_object ["id", "version", "repository"] rfl (by decide) ?_
  simp only [List.forall_mem_cons]
  exact ⟨.text n h.1, .text n h.2.1, hrepository, nofun⟩

theorem isDocument_bundleValue {b : Bundle}
    (hflags : (∃ x, b.isFragment = .bool x) ∧ ∃ x, b.isSingleton = .bool x)
    (h : IsWhole b.id ∧ IsWhole b.version.text ∧ IsWhole b.location) :
    Json.IsDocument (n + 1) (bundleValue b) := by
  obtain ⟨⟨fragment, hfragment⟩, singleton, hsingleton⟩ := hflags
  refine isDocument_object ["id", "version", "location", "fragment", "singleton"] rfl (by decide) ?_
  simp only [List.forall_mem_cons, hfragment, hsingleton]
  exact ⟨.text n h.1, .text n h.2.1, .text n h.2.2, .bool n _, .bool n _, nofun⟩

theorem isDocument_featureValue {f : Feature}
    (h : IsWhole f.id ∧ IsWhole f.version.text ∧ IsWhole f.location) :
    Json.IsDocument (n + 1) (featureValue f) := by
  refine isDocument_object ["id", "version", "location"] rfl (by decide) ?_
  simp only [List.forall_mem_cons]
  exact ⟨.text n h.1, .text n h.2.1, .text n h.2.2, nofun⟩

theorem isDocument_requirementValue {q : Requirement}
    (h : IsWhole q.namespaceName ∧ IsWhole q.name ∧ IsWhole q.range.text) :
    Json.IsDocument (n + 1) (requirementValue q) := by
  refine isDocument_object ["namespace", "name", "range", "optional"] rfl (by decide) ?_
  simp only [List.forall_mem_cons]
  exact ⟨.text n h.1, .text n h.2.1, .text n h.2.2, .bool n _, nofun⟩

theorem isDocument_list {α : Type} {as : List α} {f : α → Value}
    (h : ∀ a ∈ as, Json.IsDocument n (f a)) : Json.IsDocument (n + 1) (.list (as.map f)) :=
  .list (List.forall_mem_map.mpr h)

theorem isDocument_toValue
    (hflags : ∀ b ∈ r.bundles, (∃ x, b.isFragment = .bool x) ∧ ∃ x, b.isSingleton = .bool x)
    (h : r.IsEncodable) : Json.IsDocument 3 r.toValue := by
  have hmode : IsWhole r.mode.text := isWhole_of_not_mem (by cases r.mode <;> decide)
  refine isDocument_object ["mode", "units", "bundles", "features", "failedRequirements"] rfl
    (by decide) ?_
  simp only [List.forall_mem_cons]
  exact ⟨.text 2 hmode, isDocument_list fun u hu => isDocument_unitValue (h.units u hu),
    isDocument_list fun b hb => isDocument_bundleValue (hflags b hb) (h.bundles b hb),
    isDocument_list fun f hf => isDocument_featureValue (h.features f hf),
    isDocument_list fun q hq => isDocument_requirementValue (h.failed q hq), nofun⟩

/-! ### Tables -/

def cellText : Option Value → String
  | some (.text s) => s
  | _ => ""

def listed (report : Report) (kind key : String) (keys : List String) : List (List String) :=
  (report.columns key keys).map fun cells => kind :: cells.map cellText

/-- The header, and a row for each entry of the document. -/
def tabulated (report : Report) : List (List String) :=
  header :: (report.listed "unit" "units" ["id", "version", "location", "repository"] ++
    report.listed "bundle" "bundles" ["id", "version", "location", "repository"] ++
    report.listed "feature" "features" ["id", "version", "location", "repository"] ++
    report.listed "failed-requirement" "failedRequirements" ["name", "range", "location", "namespace"])

theorem listed_eq {α : Type} {kind key : String} {keys : List String} (as : List α)
    {f : α → Value} (h : r.entries key = as.map f) :
    r.listed kind key keys = as.map fun a => kind :: (cells keys (f a)).map cellText := by
  rw [listed, columns_eq as h, List.map_map]
  rfl

theorem rows_eq_tabulated (r : Report) : r.rows = r.tabulated := by
  have hunit (u : ReportedUnit) : ["unit", u.id, u.version, "", u.repository.getD ""] =
      "unit" :: (cells ["id", "version", "location", "repository"] (unitValue u)).map cellText := by
    obtain ⟨id, version, _ | label⟩ := u <;> rfl
  rw [tabulated, listed_eq r.units rfl, listed_eq r.bundles rfl, listed_eq r.features rfl,
    listed_eq r.failed rfl, rows, funext hunit]
  simp only [List.cons_append, List.append_assoc]
  rfl

theorem length_of_mem_tabulated {cells : List String} (h : cells ∈ r.tabulated) : cells.length = 5 := by
  rw [← rows_eq_tabulated] at h
  simp only [rows, List.cons_append, List.mem_cons, List.mem_append, List.mem_map] at h
  obtain rfl | ((⟨u, -, rfl⟩ | ⟨b, -, rfl⟩) | ⟨f, -, rfl⟩) | ⟨q, -, rfl⟩ := h <;> rfl

theorem isWhole_of_mem_rows (h : r.IsEncodable) {cells : List String} (hcells : cells ∈ r.rows) :
    ∀ s ∈ cells, IsWhole s := by
  have hfixed : ∀ s ∈ "" :: "unit" :: "bundle" :: "feature" :: "failed-requirement" :: header,
      mark ∉ s.toList := by decide
  have hword {s : String} (hs : s ∈ "" :: "unit" :: "bundle" :: "feature" :: "failed-requirement" ::
      header) : IsWhole s :=
    isWhole_of_not_mem (hfixed s hs)
  simp only [rows, List.cons_append, List.mem_cons, List.mem_append, List.mem_map] at hcells
  obtain rfl | ((⟨u, hu, rfl⟩ | ⟨b, hb, rfl⟩) | ⟨f, hf, rfl⟩) | ⟨q, hq, rfl⟩ := hcells
  · exact fun s hs =>
      hword (List.mem_append_right ["", "unit", "bundle", "feature", "failed-requirement"] hs)
  · obtain ⟨hid, hversion, hrepository⟩ := h.units u hu
    have hlabel : IsWhole (u.repository.getD "") := by
      cases hlabel : u.repository with
      | none => exact hword (by decide)
      | some s => exact hrepository s hlabel
    simp only [List.forall_mem_cons]
    exact ⟨hword (by decide), hid, hversion, hword (by decide), hlabel, nofun⟩
  · obtain ⟨hid, hversion, hlocation⟩ := h.bundles b hb
    simp only [List.forall_mem_cons]
    exact ⟨hword (by decide), hid, hversion, hlocation, hword (by decide), nofun⟩
  · obtain ⟨hid, hversion, hlocation⟩ := h.features f hf
    simp only [List.forall_mem_cons]
    exact ⟨hword (by decide), hid, hversion, hlocation, hword (by decide), nofun⟩
  · obtain ⟨hnamespace, hname, hrange⟩ := h.failed q hq
    simp only [List.forall_mem_cons]
    exact ⟨hword (by decide), hname, hrange, hword (by decide), hnamespace, nofun⟩

theorem exists_lines (h : r.IsEncodable) : ∃ rows : List (List String),
    r.csv = (Csv.lines rows).map held ∧ (∀ cells ∈ rows, cells ≠ []) ∧
      rows.map (List.map String.toList) = r.tabulated.map (List.map characters) := by
  have hcells : ∀ cells ∈ r.rows,
      (cells.map fun s => String.ofList (characters s)).map held = cells := by
    intro cells hcells
    rw [List.map_map]
    refine (List.map_congr_left fun s hs => ?_).trans (List.map_id cells)
    exact (isWhole_of_mem_rows h hcells s hs).held_characters
  have hheld : (r.rows.map (List.map fun s => String.ofList (characters s))).map (List.map held) =
      r.rows := by
    rw [List.map_map]
    exact (List.map_congr_left hcells).trans (List.map_id r.rows)
  refine ⟨r.rows.map (List.map fun s => String.ofList (characters s)), ?_, ?_, ?_⟩
  · rw [csv, ← Csv.lines_held, hheld]
  · refine List.forall_mem_map.mpr fun cells hmem => ?_
    have hlength := length_of_mem_tabulated (rows_eq_tabulated r ▸ hmem)
    exact List.ne_nil_of_length_pos (by rw [List.length_map, hlength]; decide)
  · rw [← rows_eq_tabulated, List.map_map]
    refine List.map_congr_left fun cells _ => ?_
    simp

end Report

/-! ### Both exports -/

namespace Operation

/-- What is exported of a result whose texts are made of any characters, whose versions can be written
and whose flags are truth values, to any path that can be written. The text in the one file is read as
the document of the report. The text in the other one spells a single table: the header, and for each
entry of the document a row of five fields with what the entry has in it. -/
theorem exports_agree {R : Result} {label : Installable → Option String} {w : Workspace}
    {path : String} {place : List String} (hlabel : ∀ u ∈ R.units.items, Labels access w u (label u))
    (hunits : ∀ u ∈ R.units.items, u.version.isWritable) (hothers : Report.isWritable R)
    (hflags : ∀ b ∈ R.bundles.items, (∃ x, b.isFragment = .bool x) ∧ ∃ x, b.isSingleton = .bool x)
    (hwhole : (R.reported label).IsEncodable) (hpath : w.files.target path = .ok place) :
    ∃ report, Report.ofResult access R w = .ok report w ∧
      (report.units = R.units.items.map (fun u => ⟨u.id, u.version.text, label u⟩) ∧
        report.bundles = R.bundles.items ∧ report.features = R.features.items ∧
        report.failed = R.failed ∧ report.mode = R.mode) ∧
      (∃ w' text, exportJson R path w = .ok () w' ∧ w'.files.Holds path text ∧
        ∀ fractions, Json.read fractions text.toList = .ok report.toValue) ∧
      (∃ w' text, exportCsv R path w = .ok () w' ∧ w'.files.Holds path text ∧
        ∀ table, Csv.IsTable text.toList table ↔ table = report.tabulated.map (List.map characters)) ∧
      report.tabulated = Report.header ::
        (R.units.items.map (fun u => ["unit", u.id, u.version.text, "", (label u).getD ""]) ++
          R.bundles.items.map (fun b => ["bundle", b.id, b.version.text, b.location, ""]) ++
          R.features.items.map (fun f => ["feature", f.id, f.version.text, f.location, ""]) ++
          R.failed.map fun q => ["failed-requirement", q.name, q.range.text, "", q.namespaceName]) := by
  -- The file of the document is opened first, so the report is made in a workspace with other files.
  have hreport {files : FileTree} : Report.ofResult access R { w with files := files } =
      .ok (R.reported label) { w with files := files } :=
    ofResult_of_labels label (fun u hu => labels_of_files (hlabel u hu) files) hunits hothers
  refine ⟨R.reported label, hreport, ⟨rfl, rfl, rfl, rfl, rfl⟩, ?_, ?_, ?_⟩
  · obtain ⟨files, hopen, -, htarget⟩ := writeFile_of_target hpath .empty
    have hdocument := Report.isDocument_toValue hflags hwhole
    obtain ⟨pieces, hpieces, hread⟩ := Json.exists_prettyPieces hdocument (by decide)
    obtain ⟨w', hwritten, hholds⟩ := exists_written (w := { w with files := files }) htarget pieces
      ("JSON file has been successfully exported at: " ++ path)
    rw [← hpieces] at hwritten
    exact ⟨w', _, (bind_of_ok hopen).trans ((bind_of_ok hreport).trans hwritten), hholds, hread⟩
  · obtain ⟨rows, hlines, hne, htable⟩ := Report.exists_lines hwhole
    obtain ⟨w', hwritten, hholds⟩ := exists_written hpath (Csv.lines rows)
      ("CSV file has been successfully exported at: " ++ path)
    rw [← hlines] at hwritten
    refine ⟨w', _, (bind_of_ok hreport).trans hwritten, hholds, fun table => ?_⟩
    rw [Csv.toList_join_lines, ← htable]
    exact Csv.isTable_rows_iff hne
  · rw [← Report.rows_eq_tabulated, Report.rows, Result.reported]
    simp only [List.map_map, List.cons_append, List.append_assoc]
    rfl

namespace Sample

def strange : String := held (String.ofList [mark, 'ß'])

def storage : Workspace where
  repositories := #[.ofMemory strange]

def untidy : Result where
  mode := .slice
  units := ⟨[.build "n" "a,\"b\"\r\n" ⟨1, 0, 0, ""⟩ [] [] [] (some ⟨.memory strange, 0⟩),
    .build "n" "\n" ⟨1, 0, 0, "x"⟩ [] [] [] none]⟩
  bundles := ⟨[⟨"\"", ⟨1, 0, 0, ""⟩, "/p,q.jar", .bool true, .bool false⟩]⟩
  features := ⟨[⟨"", ⟨2, 0, 0, ""⟩, " \\"⟩]⟩
  failed := [{ namespaceName := "unit", name := "\r", range := { minimum := ⟨1, 0, 0, ""⟩ } }]

def labelled (u : Installable) : Option String :=
  u.owner.map fun _ => strange

def halved : Result where
  mode := .slice
  units := ⟨[.build "n" (String.ofList (Element.half firstHalf).held) {} [] [] [] none]⟩
  bundles := {}
  features := {}
  failed := []

end Sample

open Sample

theorem labels_untidy :
    ∀ u ∈ untidy.units.items, Labels access storage u (labelled u) :=
  List.forall_mem_cons.mpr
    ⟨.owned (s := ⟨.memory strange, 0⟩) rfl rfl, List.forall_mem_singleton.mpr (.unowned rfl)⟩

theorem isEncodable_untidy : (untidy.reported labelled).IsEncodable where
  units := by
    refine List.forall_mem_cons.mpr ⟨⟨?_, ?_, ?_⟩, List.forall_mem_singleton.mpr ⟨?_, ?_, nofun⟩⟩
    · exact isWhole_of_not_mem (by decide)
    · exact isWhole_of_not_mem (by decide)
    · rintro _ ⟨⟩
      exact ⟨_, rfl⟩
    · exact isWhole_of_not_mem (by decide)
    · exact isWhole_of_not_mem (by decide)
  bundles := List.forall_mem_singleton.mpr
    ⟨isWhole_of_not_mem (by decide), isWhole_of_not_mem (by decide), isWhole_of_not_mem (by decide)⟩
  features := List.forall_mem_singleton.mpr
    ⟨isWhole_of_not_mem (by decide), isWhole_of_not_mem (by decide), isWhole_of_not_mem (by decide)⟩
  failed := List.forall_mem_singleton.mpr
    ⟨isWhole_of_not_mem (by decide), isWhole_of_not_mem (by decide), isWhole_of_not_mem (by decide)⟩

theorem target_report : ({} : FileTree).target "report" = .ok ["report"] := by
  have hpath : FileTree.checkPath "report" = .ok "report" := rfl
  have hstart : ({} : FileTree).start "report" = [] := by
    unfold FileTree.start
    split <;> rfl
  rw [FileTree.target, hpath]
  dsimp only [bind, Except.bind]
  rw [hstart]
  rfl

theorem exports_agree_untidy :
    (∃ w' text, exportJson untidy "report" storage = .ok () w' ∧ w'.files.Holds "report" text ∧
      ∀ fractions, Json.read fractions text.toList = .ok (untidy.reported labelled).toValue) ∧
    ∃ w' text, exportCsv untidy "report" storage = .ok () w' ∧ w'.files.Holds "report" text ∧
      ∀ table, Csv.IsTable text.toList table ↔ table =
        [Report.header, ["unit", "a,\"b\"\r\n", "1.0.0", "", String.ofList [mark, 'ß']],
          ["unit", "\n", "1.0.0.x", "", ""], ["bundle", "\"", "1.0.0", "/p,q.jar", ""],
          ["feature", "", "2.0.0", " \\", ""],
          ["failed-requirement", "\r", "1.0.0", "", "unit"]].map (List.map String.toList) := by
  have hwritable : ∀ u ∈ untidy.units.items, u.version.isWritable := by decide +kernel
  have hothers : Report.isWritable untidy := by decide +kernel
  have hflags : ∀ b ∈ untidy.bundles.items,
      (∃ x, b.isFragment = .bool x) ∧ ∃ x, b.isSingleton = .bool x :=
    List.forall_mem_singleton.mpr ⟨⟨true, rfl⟩, false, rfl⟩
  obtain ⟨report, hreport, -, hjson, ⟨w', text, hwritten, hholds, htable⟩, -⟩ :=
    exports_agree labels_untidy hwritable hothers hflags isEncodable_untidy
      (w := storage) target_report
  obtain rfl : report = untidy.reported labelled := by
    have hend := hreport.symm.trans (ofResult_of_labels labelled labels_untidy hwritable hothers)
    exact (EStateM.Result.ok.inj hend).1
  exact ⟨hjson, w', text, hwritten, hholds, htable⟩

theorem halved_not_exported : ¬∀ (R : Result) (label : Installable → Option String) (w : Workspace)
    (path : String), (∀ u ∈ R.units.items, Labels access w u (label u)) →
      (∀ u ∈ R.units.items, u.version.isWritable) → Report.isWritable R →
      (∀ b ∈ R.bundles.items, (∃ x, b.isFragment = .bool x) ∧ ∃ x, b.isSingleton = .bool x) →
      (∃ place, w.files.target path = .ok place) →
      ∃ w', exportCsv R path w = .ok () w' := by
  intro hall
  have hlabels : ∀ u ∈ halved.units.items, Labels access ({} : Workspace) u none :=
    List.forall_mem_singleton.mpr (.unowned rfl)
  have hwritable : ∀ u ∈ halved.units.items, u.version.isWritable := by decide +kernel
  have hothers : Report.isWritable halved := by decide +kernel
  obtain ⟨w', h⟩ := hall halved (fun _ => none) {} "report" hlabels hwritable hothers nofun
    ⟨_, target_report⟩
  have hreport := ofResult_of_labels (fun _ => none) hlabels hwritable hothers
  have hfault : (encodePieces (halved.reported fun _ => none).csv).2 = some ⟨5, [firstHalf]⟩ := by
    decide +kernel
  obtain ⟨v, hv⟩ := exists_fault (w := {}) target_report hfault
  have hend : exportCsv halved "report" {} = .error (.unencodable ⟨5, [firstHalf]⟩) v :=
    (bind_of_ok hreport).trans (bind_of_error hv)
  cases hend.symm.trans h

end Operation

end Provision
