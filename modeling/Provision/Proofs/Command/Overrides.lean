import Provision.Proofs.Command.Settings

namespace Provision.Command

open Provision.Resolution Provision.Operation

/-- The settings of requests that a configuration has. -/
inductive Tunable where
  | timeout
  | retries
  | cacheTtl
  deriving DecidableEq

namespace Tunable

def all : List Tunable := [.timeout, .retries, .cacheTtl]

def key : Tunable → String
  | .timeout => "timeout"
  | .retries => "retries"
  | .cacheTtl => "cache_ttl"

def read : Tunable → Value → Except Failure Value
  | .timeout, v => .float <$> Configuration.toFloat v
  | .retries, v => (fun n => .int (max 1 n)) <$> Configuration.toInt v
  | .cacheTtl, v => .int <$> Configuration.toInt v

def get (s : Http.Settings) : Tunable → Value
  | .timeout => s.timeout
  | .retries => s.retries
  | .cacheTtl => s.cacheTtl

def set (x : Value) (s : Http.Settings) : Tunable → Http.Settings
  | .timeout => { s with timeout := x }
  | .retries => { s with retries := x }
  | .cacheTtl => { s with cacheTtl := x }

variable {t u : Tunable} {x : Value} {s : Http.Settings} {f : Failure}

@[simp] theorem get_set : get (set x s t) t = x := by
  cases t <;> rfl

theorem get_set_of_ne (h : u ≠ t) : get (set x s t) u = get s u := by
  cases t <;> cases u <;> first | rfl | exact absurd rfl h

@[simp] theorem baseDelay_set : (set x s t).baseDelay = s.baseDelay := by
  cases t <;> rfl

theorem unread_of_read {v : Value} (h : t.read v = .error f) : Configuration.Unread f := by
  cases t with
  | timeout =>
    obtain h | ⟨_, -, h⟩ := of_bind_eq_error h
    · exact Configuration.unread_of_toFloat h
    · cases h
  | retries | cacheTtl =>
    obtain h | ⟨_, -, h⟩ := of_bind_eq_error h
    · exact Configuration.unread_of_toInt h
    · cases h

end Tunable

namespace Configuration

variable {α β : Type} {entries d : Document} {t : Tunable} {ts : List Tunable} {x : Value}
  {f : Failure} {w v w' : Workspace}

/-! ### One setting after the other -/

def override (entries : Document) (t : Tunable) : Operation Unit :=
  match entry entries t.key with
  | .null => pure ()
  | v => do
    let x ← setting (t.read v)
    modifySettings fun s => t.set x s

def overrideAll (entries : Document) : List Tunable → Operation Unit
  | [] => pure ()
  | t :: ts => do
    override entries t
    overrideAll entries ts

def reported (f : Failure) : Failure :=
  if f.kind = .numeral ∨ f.kind = .wrongType then .configuration .httpValue else f

theorem setting_of_error (f : Failure) (w : Workspace) :
    (setting (.error f) : Operation α) w = .error (reported f) w := by
  unfold setting reported
  dsimp only
  split <;> rfl

theorem setting_map (g : α → β) (x : Except Failure α) :
    setting (g <$> x) = g <$> setting x := by
  cases x with
  | ok a => rfl
  | error f =>
    funext w
    change setting (.error f) w = EStateM.map g (setting (.error f)) w
    simp only [EStateM.map, setting_of_error]

theorem overrideAll_cons {y : Value → Except Failure α} {g : α → Value}
    (h : ∀ v, t.read v = g <$> y v) (ts : List Tunable) :
    overrideAll entries (t :: ts) =
      (match entry entries t.key with
      | .null => overrideAll entries ts
      | v => do
        let a ← setting (y v)
        modifySettings fun s => t.set (g a) s
        overrideAll entries ts) := by
  rw [overrideAll, override]
  split
  · rfl
  · simp only [h, setting_map, bind_assoc, bind_map_left]

theorem applyHttp_eq (entries : Document) : applyHttp entries = overrideAll entries Tunable.all := by
  unfold applyHttp
  dsimp only
  rw [Tunable.all, overrideAll_cons (t := .timeout) fun _ => rfl,
    overrideAll_cons (t := .retries) fun _ => rfl, overrideAll_cons (t := .cacheTtl) fun _ => rfl]
  simp only [overrideAll, bind_pure_unit]
  rfl

def IsNamed (entries : Document) (t : Tunable) : Prop :=
  entry entries t.key ≠ .null

/-- Of some settings those that a configuration names are as it has them, and nothing else is changed. -/
structure Overridden (entries : Document) (ts : List Tunable) (w w' : Workspace) : Prop where
  set : ∀ t ∈ ts, IsNamed entries t → t.read (entry entries t.key) = .ok (t.get w'.http.settings)
  kept : ∀ t, t ∉ ts ∨ ¬IsNamed entries t → t.get w'.http.settings = t.get w.http.settings
  baseDelay : w'.http.settings.baseDelay = w.http.settings.baseDelay
  others : { w' with http := { w'.http with settings := w.http.settings } } = w

theorem overridden_nil (entries : Document) (w : Workspace) : Overridden entries [] w w :=
  ⟨nofun, fun _ _ => rfl, rfl, rfl⟩

theorem overridden_of_not_isNamed (h : ¬IsNamed entries t) : Overridden entries [t] w w where
  set _ hu hnamed := absurd hnamed (List.mem_singleton.mp hu ▸ h)
  kept _ _ := rfl
  baseDelay := rfl
  others := rfl

theorem overridden_of_read (hnamed : IsNamed entries t)
    (hread : t.read (entry entries t.key) = .ok x) :
    Overridden entries [t] w { w with http := { w.http with settings := t.set x w.http.settings } } where
  set u hu _ := by
    obtain rfl := List.mem_singleton.mp hu
    rw [hread, Tunable.get_set]
  kept u hu := by
    refine Tunable.get_set_of_ne ?_
    rintro rfl
    exact hu.elim (fun hmem => hmem (List.mem_singleton.mpr rfl)) fun hnot => hnot hnamed
  baseDelay := Tunable.baseDelay_set
  others := rfl

theorem Overridden.append {ts' : List Tunable} (h : Overridden entries ts w v)
    (h' : Overridden entries ts' v w') : Overridden entries (ts ++ ts') w w' where
  set u hu hnamed := by
    -- A setting of both lists is as the later one leaves it.
    by_cases hmem : u ∈ ts'
    · exact h'.set u hmem hnamed
    · have hu := (List.mem_append.mp hu).resolve_right hmem
      rw [h'.kept u (Or.inl hmem)]
      exact h.set u hu hnamed
  kept u hu := by
    have hu' : u ∉ ts' ∨ ¬IsNamed entries u := hu.imp_left (mt (List.mem_append_right _))
    have hu : u ∉ ts ∨ ¬IsNamed entries u := hu.imp_left (mt (List.mem_append_left _))
    exact (h'.kept u hu').trans (h.kept u hu)
  baseDelay := h'.baseDelay.trans h.baseDelay
  others := by
    have hv := h'.others
    have hw := h.others
    rw [← hv] at hw
    exact hw

theorem override_of_not_isNamed (h : ¬IsNamed entries t) : override entries t w = .ok () w := by
  rw [override, not_not.mp h]
  rfl

theorem override_of_isNamed (h : IsNamed entries t) : override entries t =
    setting (t.read (entry entries t.key)) >>= fun x => modifySettings fun s => t.set x s := by
  unfold override
  split
  case h_1 hnull => exact absurd hnull h
  case h_2 => rfl

theorem override_cases (entries : Document) (t : Tunable) (w : Workspace) :
    (∃ v, override entries t w = .ok () v ∧ Overridden entries [t] w v) ∨
      ∃ f, IsNamed entries t ∧ t.read (entry entries t.key) = .error f ∧
        override entries t w = .error (reported f) w := by
  by_cases hnamed : IsNamed entries t
  · rw [override_of_isNamed hnamed]
    cases hread : t.read (entry entries t.key) with
    | ok x => exact Or.inl ⟨_, rfl, overridden_of_read hnamed hread⟩
    | error f => exact Or.inr ⟨f, hnamed, rfl, bind_of_error (setting_of_error f w)⟩
  · exact Or.inl ⟨w, override_of_not_isNamed hnamed, overridden_of_not_isNamed hnamed⟩

/-- Settings are overridden one after the other, all of them or those before one that cannot be read. -/
theorem overrideAll_cases (entries : Document) (ts : List Tunable) (w : Workspace) :
    (∃ w', overrideAll entries ts w = .ok () w' ∧ Overridden entries ts w w') ∨
      ∃ front t back f w', ts = front ++ t :: back ∧ IsNamed entries t ∧
        t.read (entry entries t.key) = .error f ∧ Overridden entries front w w' ∧
          overrideAll entries ts w = .error (reported f) w' := by
  induction ts generalizing w with
  | nil => exact Or.inl ⟨w, rfl, overridden_nil entries w⟩
  | cons t ts ih =>
    -- The others begin with what the first setting leaves, and do not begin where it cannot be read.
    obtain ⟨v, hv, hover⟩ | ⟨f, hnamed, hread, hfail⟩ := override_cases entries t w
    · have hrun : overrideAll entries (t :: ts) w = overrideAll entries ts v := bind_of_ok hv
      rw [hrun]
      obtain ⟨w', hw', hrest⟩ | ⟨front, u, back, f, w', rfl, hnamed, hread, hrest, hfail⟩ := ih v
      · exact Or.inl ⟨w', hw', hover.append hrest⟩
      · exact Or.inr ⟨t :: front, u, back, f, w', rfl, hnamed, hread, hover.append hrest, hfail⟩
    · exact Or.inr ⟨[], t, ts, f, w, rfl, hnamed, hread, overridden_nil entries w, bind_of_error hfail⟩

/-! ### All settings -/

/-- What a configuration says of requests, unless that is no mapping. -/
def httpEntries? (d : Document) : Option Document :=
  match (filled? d "http").map Value.opened with
  | none => some []
  | some (.map entries) => some entries
  | some _ => none

theorem httpSettings_eq (d : Document) : httpSettings d = match httpEntries? d with
    | some entries => overrideAll entries Tunable.all
    | none => fail .httpNoMapping := by
  simp only [httpSettings, httpEntries?, ← applyHttp_eq]
  generalize (filled? d "http").map Value.opened = content
  cases content with
  | none => rfl
  | some v => cases v <;> rfl

def IsPositive (v : Value) : Prop :=
  ∃ n : Int, 1 ≤ n ∧ v = .int n

def Applied (d : Document) (w w' : Workspace) : Prop :=
  ∃ entries, httpEntries? d = some entries ∧ Overridden entries Tunable.all w w' ∧
    (IsNamed entries .retries → IsPositive w'.http.settings.retries)

/-- What a configuration says of requests is no mapping and nothing is changed, or one of the settings
cannot be read and those before it are in effect. -/
inductive Stopped (d : Document) (w : Workspace) : Workspace → Prop where
  | noMapping (hd : httpEntries? d = none) : Stopped d w w
  | unread {entries front t back f w'} (hd : httpEntries? d = some entries)
      (hall : Tunable.all = front ++ t :: back) (hnamed : IsNamed entries t)
      (hread : t.read (entry entries t.key) = .error f) (hf : f = .numeral ∨ f = .wrongType)
      (h : Overridden entries front w w') : Stopped d w w'

theorem isPositive_of_read {v : Value} (h : Tunable.retries.read v = .ok x) : IsPositive x := by
  obtain ⟨n, -, hn⟩ := bind_eq_ok_iff.mp h
  cases hn
  exact ⟨_, Int.le_max_left 1 n, rfl⟩

theorem Overridden.isPositive (h : Overridden entries ts w w')
    (hretries : Tunable.retries ∈ ts ∧ IsNamed entries .retries ∨ IsPositive w.http.settings.retries) :
    IsPositive w'.http.settings.retries := by
  by_cases hset : Tunable.retries ∈ ts ∧ IsNamed entries .retries
  · exact isPositive_of_read (h.set _ hset.1 hset.2)
  · have hkept : w'.http.settings.retries = w.http.settings.retries :=
      h.kept .retries (not_and_or.mp hset)
    rw [hkept]
    exact hretries.resolve_left hset

theorem reported_eq_configuration {fault : ConfigFault} (hf : Unread f)
    (h : reported f = .configuration fault) : f = .numeral ∨ f = .wrongType := by
  obtain rfl | rfl | rfl := hf
  · exact Or.inl rfl
  · exact Or.inr rfl
  · cases h

theorem of_httpSettings_ok (h : httpSettings d w = .ok () w') : Applied d w w' := by
  rw [httpSettings_eq] at h
  cases hd : httpEntries? d with
  | none =>
    rw [hd] at h
    cases h
  | some entries =>
    rw [hd] at h
    dsimp only at h
    obtain ⟨v, hv, hover⟩ | ⟨_, _, _, f, v, -, -, -, -, hfail⟩ :=
      overrideAll_cases entries Tunable.all w
    · obtain rfl : v = w' := by
        rw [hv] at h
        cases h
        rfl
      exact ⟨entries, hd, hover, fun hnamed => hover.isPositive (Or.inl ⟨by decide, hnamed⟩)⟩
    · rw [hfail] at h
      cases h

theorem of_httpSettings_error {fault : ConfigFault}
    (h : httpSettings d w = .error (.configuration fault) w') : Stopped d w w' := by
  rw [httpSettings_eq] at h
  cases hd : httpEntries? d with
  | none =>
    rw [hd] at h
    cases h
    exact .noMapping hd
  | some entries =>
    rw [hd] at h
    dsimp only at h
    obtain ⟨v, hv, -⟩ | ⟨front, t, back, f, v, hall, hnamed, hread, hover, hfail⟩ :=
      overrideAll_cases entries Tunable.all w
    · rw [hv] at h
      cases h
    · rw [hfail] at h
      obtain ⟨hf, rfl⟩ := EStateM.Result.error.inj h
      exact .unread hd hall hnamed hread
        (reported_eq_configuration (Tunable.unread_of_read hread) hf) hover

/-- Where no setting is too large, all of them are put into effect or a fault is reported. -/
theorem httpSettings_ends (hlarge : ∀ entries, httpEntries? d = some entries →
      ∀ t : Tunable, t.read (entry entries t.key) ≠ .error .overflow) (w : Workspace) :
    (∃ w', httpSettings d w = .ok () w') ∨
      ∃ fault w', httpSettings d w = .error (.configuration fault) w' := by
  rw [httpSettings_eq]
  cases hd : httpEntries? d with
  | none => exact Or.inr ⟨_, _, rfl⟩
  | some entries =>
    obtain ⟨v, hv, -⟩ | ⟨_, t, _, f, v, -, -, hread, -, hfail⟩ :=
      overrideAll_cases entries Tunable.all w
    · exact Or.inl ⟨v, hv⟩
    · refine Or.inr ⟨.httpValue, v, hfail.trans ?_⟩
      obtain rfl | rfl | rfl := Tunable.unread_of_read hread
      · rfl
      · rfl
      · exact absurd hread (hlarge entries hd t)

/-! ### What comes behind the settings of requests -/

def Still (y : Operation α) : Prop :=
  ∀ w, endWorld (y w) = w

theorem still_pure (a : α) : Still (pure a) := fun _ => rfl

theorem still_fail (fault : ConfigFault) : Still (fail fault : Operation α) := fun _ => rfl

theorem still_bind {y : Operation α} {g : α → Operation β} (hy : Still y) (hg : ∀ a, Still (g a)) :
    Still (y >>= g) := by
  intro w
  have hend := hy w
  cases h : y w with
  | ok a v =>
    rw [h] at hend
    rw [bind_of_ok h, hg a v]
    exact hend
  | error f v =>
    rw [h] at hend
    rw [bind_of_error h]
    exact hend

theorem still_mapM {g : α → Operation β} (hg : ∀ a, Still (g a)) (as : List α) :
    Still (as.mapM g) := by
  induction as with
  | nil => exact still_pure _
  | cons a as ih =>
    rw [List.mapM_cons]
    exact still_bind (hg a) fun _ => still_bind ih fun _ => still_pure _

theorem still_textOf (v : Value) : Still (textOf v) := by
  unfold textOf
  split
  · exact still_pure _
  · exact fun _ => rfl

theorem still_repositoriesOf (a : Arguments) (d : Document) : Still (repositoriesOf a d) := by
  unfold repositoriesOf
  split
  · exact still_pure _
  · split
    · exact still_pure _
    · exact still_mapM still_textOf _
    · exact still_fail _

theorem still_modeOf (a : Arguments) (d : Document) : Still (modeOf a d) := by
  unfold modeOf
  split
  · exact still_pure _
  · exact still_pure _
  · refine still_bind (still_textOf _) fun name => ?_
    dsimp only
    split
    · exact still_pure _
    · exact still_fail _

theorem still_logLevelOf (a : Arguments) (d : Document) : Still (logLevelOf a d) := by
  unfold logLevelOf
  split
  · exact still_pure _
  · exact still_bind (still_textOf _) fun _ => still_pure _
  · exact still_pure _

def furtherSettings (a : Arguments) (d : Document) : Operation Configuration := do
  let repositories ← repositoriesOf a d
  let mode ← modeOf a d
  return ⟨repositories, mode, a.units, ← logLevelOf a d⟩

theorem ofDocument_eq (a : Arguments) (d : Document) :
    ofDocument a d = httpSettings d >>= fun _ => furtherSettings a d := rfl

theorem still_furtherSettings (a : Arguments) (d : Document) : Still (furtherSettings a d) :=
  still_bind (still_repositoriesOf a d) fun _ => still_bind (still_modeOf a d) fun _ =>
    still_bind (still_logLevelOf a d) fun _ => still_pure _

/-- Where the settings of a run are at fault, either no file was read, or the settings of requests are
those that were in effect when reading them ended. -/
theorem of_ofArguments_error {a : Arguments} {fault : ConfigFault}
    (h : ofArguments a w = .error (.configuration fault) w') :
    load (a.config.getD "") w = .error (.configuration fault) w ∧ w' = w ∨
      ∃ d, load (a.config.getD "") w = .ok d w ∧
        (httpSettings d w = .error (.configuration fault) w' ∨ httpSettings d w = .ok () w') := by
  rw [ofArguments_eq] at h
  have hend := endWorld_load (a.config.getD "") w
  obtain hload | ⟨d, v, hload, hdocument⟩ := of_bind_error h
  · rw [hload] at hend
    obtain rfl : w' = w := hend
    exact Or.inl ⟨hload, rfl⟩
  · rw [hload] at hend
    obtain rfl : v = w := hend
    refine Or.inr ⟨d, hload, ?_⟩
    rw [ofDocument_eq] at hdocument
    obtain hhttp | ⟨_, v, hhttp, hfurther⟩ := of_bind_error hdocument
    · exact Or.inl hhttp
    · have hend := still_furtherSettings a d v
      rw [hfurther] at hend
      obtain rfl : w' = v := hend
      exact Or.inr hhttp

/-- The settings of requests are put into effect one after the other. If all of them can be read, all
that are named are in effect, and nothing else is changed; if a fault is reported, those in front of the
one that cannot be read are, and where no number is too large nothing else can happen. If a fault is
reported for the settings of a run, no document was read, or the settings of requests stay as reading
them left them. -/
theorem overrides_in_order :
    (∀ (d : Document) (w : Workspace),
      (∀ w', httpSettings d w = .ok () w' → Applied d w w') ∧
      (∀ fault w', httpSettings d w = .error (.configuration fault) w' → Stopped d w w' ∧
        (IsPositive w.http.settings.retries → IsPositive w'.http.settings.retries)) ∧
      ((∀ entries, httpEntries? d = some entries →
          ∀ t : Tunable, t.read (entry entries t.key) ≠ .error .overflow) →
        (∃ w', httpSettings d w = .ok () w') ∨
          ∃ fault w', httpSettings d w = .error (.configuration fault) w')) ∧
    ∀ (a : Arguments) (w : Workspace) (fault : ConfigFault) (w' : Workspace),
      ofArguments a w = .error (.configuration fault) w' →
        load (a.config.getD "") w = .error (.configuration fault) w ∧ w' = w ∨
          ∃ d, load (a.config.getD "") w = .ok d w ∧
            (httpSettings d w = .error (.configuration fault) w' ∧ Stopped d w w' ∨
              httpSettings d w = .ok () w' ∧ Applied d w w') := by
  refine ⟨fun d w => ⟨fun w' => of_httpSettings_ok, fun fault w' h => ?_, fun hlarge => ?_⟩,
    fun a w fault w' h => ?_⟩
  · have hstopped := of_httpSettings_error h
    refine ⟨hstopped, fun hpositive => ?_⟩
    cases hstopped with
    | noMapping => exact hpositive
    | unread _ _ _ _ _ hover => exact hover.isPositive (Or.inr hpositive)
  · exact httpSettings_ends hlarge w
  · obtain hload | ⟨d, hload, hhttp⟩ := of_ofArguments_error h
    · exact Or.inl hload
    · exact Or.inr ⟨d, hload, hhttp.imp (fun h => ⟨h, of_httpSettings_error h⟩)
        fun h => ⟨h, of_httpSettings_ok h⟩⟩

def misnumbered : Document :=
  [(.text "http", .map [(.text "timeout", .float 5.0), (.text "retries", .text "abc")])]

def timed : Workspace where
  http := { clock := 1000.0, settings := { timeout := .float 5.0 } }

/-- The setting in front of the one that is no number is in effect; a file that is not there changes
nothing. -/
theorem overrides_in_order_misnumbered :
    (Stopped misnumbered {} timed ∧ IsPositive timed.http.settings.retries) ∧
      (∃ fault w', httpSettings misnumbered {} = .error (.configuration fault) w') ∧
      ∃ fault, ofArguments { config := some "absent" } {} = .error (.configuration fault) {} ∧
        load "absent" {} = .error (.configuration fault) {} := by
  obtain ⟨hhttp, harguments⟩ := overrides_in_order
  obtain ⟨-, hfault, hends⟩ := hhttp misnumbered {}
  obtain ⟨hstopped, hpositive⟩ := hfault .httpValue timed rfl
  have hlarge : ∀ entries, httpEntries? misnumbered = some entries →
      ∀ t : Tunable, t.read (entry entries t.key) ≠ .error .overflow := by
    intro entries hentries t hread
    cases hentries
    cases t <;> cases hread
  refine ⟨⟨hstopped, hpositive ⟨3, by decide, rfl⟩⟩, (hends hlarge).resolve_left ?_, ?_⟩
  · rintro ⟨w', hw'⟩
    cases hw'
  · have habsent : ({} : Workspace).files.isFile "absent" = false := by decide +kernel
    have hload : load "absent" {} = .error (.configuration (.noFile "absent")) {} := by
      rw [load_apply (by decide), habsent]
      rfl
    have hended : ofArguments { config := some "absent" } {} =
        .error (.configuration (.noFile "absent")) {} := bind_of_error hload
    obtain ⟨hload, -⟩ | ⟨d, hd, -⟩ := harguments { config := some "absent" } {} _ {} hended
    · exact ⟨_, hended, hload⟩
    · cases hload.symm.trans hd

theorem tunables_not_kept :
    ¬∀ (d : Document) (w w' : Workspace) (fault : ConfigFault),
      httpSettings d w = .error (.configuration fault) w' →
        ∀ t : Tunable, t.get w'.http.settings = t.get w.http.settings := by
  intro hall
  have hkept := hall misnumbered {} timed .httpValue rfl .timeout
  cases hkept

end Configuration

end Provision.Command
