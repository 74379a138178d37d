import Provision.Proofs.Resolution.Accounting
import Provision.Proofs.Version
import Provision.Report

namespace Provision

open Provision.Resolution

theorem nodup_map_of_imp {α β γ : Type} {as : List α} {f : α → β} {g : α → γ}
    (hfg : ∀ a b, f a = f b → g a = g b) (hg : (as.map g).Nodup) : (as.map f).Nodup := by
  rw [List.Nodup, List.pairwise_map] at hg ⊢
  exact hg.imp fun {a b} hne heq => hne (hfg a b heq)

namespace Report

def entries (report : Report) (key : String) : List Value :=
  match report.toValue with
  | .map fields =>
    match Value.get? key fields with
    | some (.list vs) => vs
    | _ => []
  | _ => []

/-- What an entry has under some keys. -/
def cells (keys : List String) : Value → List (Option Value)
  | .map fields => keys.map fun key => Value.get? key fields
  | _ => []

def columns (report : Report) (key : String) (keys : List String) : List (List (Option Value)) :=
  (report.entries key).map (cells keys)

variable {α : Type} {report : Report} {key : String} {keys : List String}

theorem columns_eq (as : List α) {f : α → Value} (h : report.entries key = as.map f) :
    report.columns key keys = as.map fun a => cells keys (f a) := by
  rw [columns, h, List.map_map]
  rfl

theorem texts_inj {s t s' t' : String} (h : [some (Value.text s), some (.text t)] =
    [some (.text s'), some (.text t')]) : (s, t) = (s', t') := by
  simpa using h

theorem nodup_columns_of_keys [Versioned α] {as : List α} {f : α → Value}
    (h : report.entries key = as.map f)
    (hcells : ∀ a, cells keys (f a) =
      [some (.text (Versioned.id a)), some (.text (Versioned.version a).text)])
    (hkeys : (as.map Collection.key).Nodup) : (report.columns key keys).Nodup := by
  rw [columns_eq as h]
  refine nodup_map_of_imp (fun a b hab => ?_) hkeys
  rw [hcells, hcells] at hab
  obtain ⟨hid, hversion⟩ := Prod.mk.inj (texts_inj hab)
  exact Prod.ext hid (Version.text_injective hversion)

def question (r : Requirement) : List (Option Value) :=
  cells ["namespace", "name", "range"] (requirementValue r)

theorem question_inj {q r : Requirement} (h : question q = question r) :
    q.namespaceName = r.namespaceName ∧ q.name = r.name ∧ q.range.text = r.range.text := by
  have hshown : [some (Value.text q.namespaceName), some (.text q.name), some (.text q.range.text)] =
      [some (.text r.namespaceName), some (.text r.name), some (.text r.range.text)] := h
  simpa using hshown

theorem twins_of_question {q r : Requirement} (hq : q.range.IsRead) (hr : r.range.IsRead)
    (hne : q.key ≠ r.key) (h : question q = question r) : q.range.Twins r.range := by
  obtain ⟨hnamespace, hname, htext⟩ := question_inj h
  obtain hrange | htwins := VersionRange.eq_or_twins_of_text hq.isPlain hr.isPlain htext
  · refine absurd ?_ hne
    rw [Requirement.key, hnamespace, hname, hrange, Requirement.key]
  · exact htwins

end Report

/-! ### What a result comes to -/

namespace Resolution

variable {σ : Type} {A : Access σ} {S : Setting} {requested : List Installable} {w w' v v' w₀ : σ}
  {R : Result} {report : Report}

theorem nodup_contents_of_moves {d : Config} (h : Moves A w₀ S ⟨requested, {}, []⟩ d) :
    (d.progress.bundles.items.map Collection.key).Nodup ∧
      (d.progress.features.items.map Collection.key).Nodup := by
  induction h with
  | refl => exact ⟨List.nodup_nil, List.nodup_nil⟩
  | tail _ hm ih =>
    cases hm with
    -- Bundles and features are added by visits alone.
    | skipRoot | leave | skip | drop | fail | meet => exact ih
    | visitRoot | visit =>
      exact ⟨Collection.nodup_keys_foldl _ ih.1, Collection.nodup_keys_foldl _ ih.2⟩

theorem nodup_failed_of_moves {d : Config} (h : Moves A w₀ S ⟨requested, {}, []⟩ d) :
    (d.progress.state.failed.map Requirement.key).Nodup := by
  obtain ⟨acts, hacts⟩ := acts_of_moves h
  rw [hacts]
  exact State.nodup_failed_after acts

theorem isRead_of_mem_failed (h : resolve A S requested w = .ok R w')
    (hread : ∀ u ∈ seen requested (calls A S requested w), ∀ r ∈ u.requires, r.range.IsRead)
    {q : Requirement} (hq : q ∈ R.failed) : q.range.IsRead := by
  obtain ⟨p, x, rfl, -, -, hp⟩ := replay_of_resolve h
  obtain ⟨-, hm⟩ := moves_of_passes .start hp
  obtain ⟨-, u, hu, hrequires, -⟩ := (sound_of_moves hm).progress.refused q hq
  exact hread u (mem_seen_of_moves hm hu) q hrequires

theorem map_of_mapM {α β γ : Type} {x : α → EStateM Failure σ β} {f : β → γ} {g : α → γ}
    (hx : ∀ a v b v', x a v = .ok b v' → f b = g a) {as : List α} {bs : List β}
    (h : as.mapM x v = .ok bs v') : bs.map f = as.map g := by
  induction as generalizing v bs with
  | nil =>
    cases h
    rfl
  | cons a as ih =>
    rw [List.mapM_cons] at h
    obtain ⟨b, v₁, hb, h⟩ := exists_of_bind_ok h
    obtain ⟨cs, v₂, hcs, h⟩ := exists_of_bind_ok h
    cases h
    rw [List.map_cons, List.map_cons, hx a v b v₁ hb, ih hcs]

/-- What a unit's repository is called, if it has one. -/
inductive Labels (A : Access σ) (w : σ) (u : Installable) : Option String → Prop where
  | unowned (h : u.owner = none) : Labels A w u none
  | owned {s label} (h : u.owner = some s) (hlabel : A.describe s w = .ok label w) :
      Labels A w u (some label)

/-- A result with certain labels for the repositories of its units. -/
def Result.reported (R : Result) (label : Installable → Option String) : Report where
  mode := R.mode
  units := R.units.items.map fun u => ⟨u.id, u.version.text, label u⟩
  bundles := R.bundles.items
  features := R.features.items
  failed := R.failed

theorem mapM_eq_map {α β : Type} {x : α → EStateM Failure σ β} {f : α → β} {as : List α}
    (h : ∀ a ∈ as, x a w = .ok (f a) w) : as.mapM x w = .ok (as.map f) w := by
  induction as with
  | nil => rfl
  | cons a as ih =>
    obtain ⟨ha, has⟩ := List.forall_mem_cons.mp h
    rw [List.mapM_cons, bind_of_ok ha, bind_of_ok (ih has)]
    rfl

theorem reportUnit_eq (u : Installable) : Report.reportUnit A u = if u.version.isWritable then do
      let repository ← match u.owner with
        | none => pure none
        | some s => some <$> A.describe s
      return ⟨u.id, u.version.text, repository⟩
    else throw .numeral := by
  unfold Report.reportUnit
  cases u.version.isWritable <;> rfl

theorem ofResult_eq (R : Result) : Report.ofResult A R = (do
    let units ← R.units.items.mapM (Report.reportUnit A)
    if Report.isWritable R then
      return ⟨R.mode, units, R.bundles.items, R.features.items, R.failed⟩
    else throw .numeral) := by
  unfold Report.ofResult
  refine bind_congr fun units => ?_
  cases Report.isWritable R <;> rfl

theorem reportUnit_of_labels {u : Installable} {label : Option String} (h : Labels A w u label)
    (hwritable : u.version.isWritable) :
    Report.reportUnit A u w = .ok ⟨u.id, u.version.text, label⟩ w := by
  rw [reportUnit_eq, if_pos hwritable]
  cases h with
  | unowned h =>
    rw [h]
    rfl
  | owned h hlabel =>
    rw [h]
    have hsome : (some <$> A.describe _) w = _ := bind_of_ok hlabel
    exact bind_of_ok hsome

/-- A report has the entries of the result, each with its texts and with what its repository is
called. -/
theorem ofResult_of_labels (label : Installable → Option String)
    (hlabel : ∀ u ∈ R.units.items, Labels A w u (label u))
    (hunits : ∀ u ∈ R.units.items, u.version.isWritable) (hothers : Report.isWritable R) :
    Report.ofResult A R w = .ok (R.reported label) w := by
  have hreported := mapM_eq_map fun u hu => reportUnit_of_labels (hlabel u hu) (hunits u hu)
  rw [ofResult_eq, bind_of_ok hreported, if_pos hothers]
  rfl

theorem reported_of_reportUnit {u : Installable} {t : ReportedUnit}
    (h : Report.reportUnit A u v = .ok t v') : (t.id, t.version) = (u.id, u.version.text) := by
  rw [reportUnit_eq] at h
  split at h
  · cases hu : u.owner with
    | none =>
      rw [hu] at h
      cases h
      rfl
    | some s =>
      rw [hu] at h
      obtain ⟨name, v₁, -, h⟩ := exists_of_bind_ok h
      cases h
      rfl
  · cases h

theorem reported_of_ofResult (h : Report.ofResult A R v = .ok report v') :
    (report.units.map fun t => (t.id, t.version)) =
        R.units.items.map (fun u => (u.id, u.version.text)) ∧
      report.bundles = R.bundles.items ∧ report.features = R.features.items ∧
      report.failed = R.failed := by
  rw [ofResult_eq] at h
  obtain ⟨units, v₁, hunits, h⟩ := exists_of_bind_ok h
  have hreported := map_of_mapM (f := fun t => (t.id, t.version))
    (g := fun u : Installable => (u.id, u.version.text))
    (fun _ _ _ _ => reported_of_reportUnit) hunits
  split at h
  · cases h
    exact ⟨hreported, rfl, rfl, rfl⟩
  · cases h

/-- No two units of a report have the same id and version as written there, and neither have two
bundles or two features. Where the ranges of all requirements were read, two failed requirements of the
same namespace, name and range as written there ask for bare versions, one of them with an upper bound
in its range that is not there; no two have the same where that is nowhere so. -/
theorem distinct_of_ofResult (h : resolve A S requested w = .ok R w')
    (hread : ∀ u ∈ seen requested (calls A S requested w), ∀ r ∈ u.requires, r.range.IsRead)
    (hreport : Report.ofResult A R v = .ok report v') :
    (report.columns "units" ["id", "version"]).Nodup ∧
    (report.columns "bundles" ["id", "version"]).Nodup ∧
    (report.columns "features" ["id", "version"]).Nodup ∧
    report.entries "failedRequirements" = report.failed.map Report.requirementValue ∧
    (report.failed.Pairwise fun q r =>
      Report.question q = Report.question r → q.range.Twins r.range) ∧
    ((∀ q ∈ report.failed, q.range.maximum = none → q.range.includeMaximum = false) →
      (report.columns "failedRequirements" ["namespace", "name", "range"]).Nodup) := by
  obtain ⟨hunits, hbundles, hfeatures, hfailed⟩ := reported_of_ofResult hreport
  have hreads := fun q => isRead_of_mem_failed h hread (q := q)
  obtain ⟨p, rfl, hm⟩ := moves_of_resolve h
  have hkeys : (p.units.items.map Collection.key).Nodup := nodup_of_moves hm
  obtain ⟨hb, hf⟩ := nodup_contents_of_moves hm
  have htwins : report.failed.Pairwise fun q r =>
      Report.question q = Report.question r → q.range.Twins r.range := by
    rw [hfailed]
    have hdistinct : p.state.failed.Pairwise fun q r => q.key ≠ r.key :=
      List.pairwise_map.mp (nodup_failed_of_moves hm)
    exact hdistinct.imp_of_mem fun hq hr hne =>
      Report.twins_of_question (hreads _ hq) (hreads _ hr) hne
  refine ⟨?_, ?_, ?_, rfl, htwins, fun hclosed => ?_⟩
  · rw [Report.columns_eq report.units rfl]
    refine nodup_map_of_imp (g := fun t => (t.id, t.version)) (fun _ _ => Report.texts_inj) ?_
    rw [hunits]
    refine nodup_map_of_imp (fun a b heq => ?_) hkeys
    obtain ⟨hid, hversion⟩ := Prod.mk.inj heq
    exact Prod.ext hid (Version.text_injective hversion)
  · exact Report.nodup_columns_of_keys rfl (fun _ => rfl) (hbundles ▸ hb)
  · exact Report.nodup_columns_of_keys rfl (fun _ => rfl) (hfeatures ▸ hf)
  · rw [Report.columns_eq report.failed rfl, List.Nodup, List.pairwise_map]
    -- Twins differ in whether the bound that is not there is in them; here it is in neither.
    refine htwins.imp_of_mem fun {q r} hq hr htwin heq => ?_
    obtain ⟨⟨hnone, -⟩, hother⟩ := htwin heq
    have hq' := hclosed q hq hnone
    have hr' := hclosed r hr (hother ▸ hnone)
    rw [hother, hq'] at hr'
    cases hr'

namespace Sample

def upward : VersionRange := { minimum := one }

def bracketed : VersionRange := { upward with includeMaximum := true }

def insistent : Installable :=
  .build unitNamespace "insistent" one
    [{ asks "p" with range := bracketed }, { asks "p" with range := upward }] [] [] none

def barren : Workspace where
  repositories := #[memory "first" []]

end Sample

open Sample

theorem isRead_upward : upward.IsRead := ⟨.text "1.0", Or.inl rfl⟩

theorem isRead_bracketed : bracketed.IsRead := ⟨.text "[1.0,]", Or.inl rfl⟩

theorem resolve_barren :
    ∃ w', resolve Operation.access ⟨[first], .slice⟩ [insistent] barren =
      .ok ⟨.slice, ⟨[insistent]⟩, {}, {}, insistent.requires⟩ w' :=
  resolve_of_resultWithin? (n := 10) rfl

theorem isRead_barren (S : Setting) :
    ∀ u ∈ seen [insistent] (calls Operation.access S [insistent] barren), ∀ r ∈ u.requires,
      r.range.IsRead := by
  have hmemory : barren.Resembles barren := .refl_of_inMemory (by simp [barren, inMemory_memory])
  intro u hu
  have hdeclared : u ∈ [insistent] ++ barren.repositories.toList.flatMap Repository.declared :=
    seen_subset_of_resembles hmemory hu
  obtain rfl : u = insistent := by simpa [barren, memory] using hdeclared
  exact List.forall_mem_cons.mpr ⟨isRead_bracketed, List.forall_mem_singleton.mpr isRead_upward⟩

theorem ofResult_barren (w : Workspace) : Report.ofResult Operation.access
    ⟨.slice, ⟨[insistent]⟩, {}, {}, insistent.requires⟩ w =
      .ok ⟨.slice, [⟨"insistent", "1.0.0", none⟩], [], [], insistent.requires⟩ w :=
  ofResult_of_labels (fun _ => none) (List.forall_mem_singleton.mpr (.unowned rfl))
    (List.forall_mem_singleton.mpr (by decide +kernel)) (by decide +kernel)

theorem distinct_of_barren :
    ∃ R w' report, resolve Operation.access ⟨[first], .slice⟩ [insistent] barren = .ok R w' ∧
      Report.ofResult Operation.access R w' = .ok report w' ∧
      report.failed = insistent.requires ∧
      (report.columns "units" ["id", "version"]).Nodup ∧
      (report.columns "bundles" ["id", "version"]).Nodup ∧
      (report.columns "features" ["id", "version"]).Nodup ∧
      report.failed.Pairwise fun q r =>
        Report.question q = Report.question r → q.range.Twins r.range := by
  obtain ⟨w', h⟩ := resolve_barren
  have hreport := ofResult_barren w'
  obtain ⟨hunits, hbundles, hfeatures, -, htwins, -⟩ :=
    distinct_of_ofResult h (isRead_barren _) hreport
  exact ⟨_, w', _, h, hreport, rfl, hunits, hbundles, hfeatures, htwins⟩

/-- Failed requirements can have the same namespace, name and range as written in a report. -/
theorem questions_not_distinct : ¬∀ (S : Setting) (requested : List Installable) (w w' v v' : Workspace)
    (R : Result) (report : Report), resolve Operation.access S requested w = .ok R w' →
      (∀ u ∈ seen requested (calls Operation.access S requested w), ∀ r ∈ u.requires,
        r.range.IsRead) →
      Report.ofResult Operation.access R v = .ok report v' →
      (report.columns "failedRequirements" ["namespace", "name", "range"]).Nodup := by
  intro hall
  obtain ⟨w', h⟩ := resolve_barren
  have hnodup := hall _ _ _ w' w' w' _ _ h (isRead_barren _) (ofResult_barren w')
  exact (List.nodup_cons.mp hnodup).1 List.mem_cons_self

end Resolution

end Provision
