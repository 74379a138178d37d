import Provision.Proofs.Workspace.Selection
import Provision.Proofs.Workspace.Serving

namespace Provision

open Provision.Resolution Provision.Operation Provision.Text

/-! ### Written requests -/

namespace Request

def versionValue (r : Request) : Value :=
  (r.version.map Value.text).getD .null

theorem not_isBlank_of_isName {id : String} (hid : IsName id) :
    ∀ c ∈ id.toList.head?, isBlank c = false := by
  rw [← hid.trimmed]
  exact fun _ => not_isBlank_of_head?_trim

/-- What stands in front of the last colon is the id, and what stands behind it is trimmed. -/
theorem ofText_append {id : String} {cs : List Char} (hid : IsName id) (hcolon : ':' ∉ cs) :
    ofText (id ++ ":" ++ String.ofList cs) =
      ⟨id, if (trim cs).isEmpty then none else some (String.ofList (trim cs))⟩ := by
  have hlist : (id ++ ":" ++ String.ofList cs).toList = id.toList ++ ':' :: cs := by simp
  have hfront : (id.toList ++ ':' :: cs).dropWhile isBlank = id.toList ++ ':' :: cs := by
    obtain ⟨c, rest, hcons⟩ := List.exists_cons_of_ne_nil hid.nonempty
    have hhead : isBlank c = false := not_isBlank_of_isName hid c (by rw [hcons]; rfl)
    rw [hcons, List.cons_append, List.dropWhile_cons_of_neg (Bool.eq_false_iff.mp hhead)]
  have htrim : trim (id.toList ++ ':' :: cs) = id.toList ++ ':' :: dropEndWhile isBlank cs := by
    rw [trim, trimWhile, hfront, dropEndWhile_append_cons (by decide)]
  have hcut : cutAtLast (· = ':') (id.toList ++ ':' :: dropEndWhile isBlank cs) =
      some (id.toList, dropEndWhile isBlank cs) := by
    refine cutAtLast_append (decide_eq_true rfl) fun c hc => decide_eq_false ?_
    rintro rfl
    exact hcolon ((List.rdropWhile_prefix isBlank cs).subset hc)
  rw [ofText, hlist, htrim]
  dsimp only
  rw [hcut]
  dsimp only
  rw [trim_dropEndWhile, hid.trimmed, String.ofList_toList]

theorem ofText_of_id {id : String} (hid : IsName id) : ofText (id ++ ":") = ⟨id, none⟩ := by
  have h := ofText_append hid List.not_mem_nil
  rwa [String.ofList_nil, String.append_empty] at h

theorem ofText_of_constructed {id : String} (hid : IsName id) {v : ConstructedVersion}
    (hv : ConstructedVersion.isQualifier v.qualifier.toList) :
    ofText (id ++ ":" ++ v.text) = ⟨id, some (String.ofList (trim v.text.toList))⟩ := by
  have h := ofText_append hid (ConstructedVersion.colon_not_mem_text hv)
  rwa [String.ofList_toList, List.isEmpty_eq_false_iff.mpr v.trim_text_ne_nil] at h

end Request

/-! ### Searches in one repository after the other -/

namespace Operation

variable {s : Source} {id : String} {version : Value} {w v : Workspace} {u : Installable} {f : Failure}

theorem findFirst_of_found (h : findUnit s id version w = .ok u v) (ss : List Source) :
    findFirst id version (s :: ss) w = .ok (.inl u) v := by
  have hattempt : findFirst.attempt id version s w = .ok (.inl u) v := by rw [findFirst.attempt, h]
  rw [findFirst, bind_of_ok hattempt]
  rfl

theorem findFirst_of_missing (h : findUnit s id version w = .error f v) (hf : f.isMissing)
    {ss : List Source} {found : Installable ⊕ List Failure} {v' : Workspace}
    (hrest : findFirst id version ss v = .ok found v') :
    findFirst id version (s :: ss) w = .ok (found.map (fun u => u) (f :: ·)) v' := by
  have hattempt : findFirst.attempt id version s w = .ok (.inr f) v := by
    rw [findFirst.attempt, h]
    exact if_pos hf
  rw [findFirst, bind_of_ok hattempt]
  dsimp only
  rw [bind_of_ok hrest]
  cases found <;> rfl

theorem findUnit_of_unwanted (h : wanted? version = .error f) (s : Source) (id : String)
    (w : Workspace) : findUnit s id version w = .error f w := by
  unfold findUnit
  dsimp only
  split
  case h_1 => cases h
  case h_2 hnull =>
    rw [wanted?] at h
    · cases hv : Version.ofValue version with
      | error g =>
        rw [hv] at h
        cases h
        rfl
      | ok x =>
        rw [hv] at h
        cases h
    · exact hnull

theorem selected_of_findUnit (h : findUnit s id version w = .ok u v) :
    ∃ us wanted, wanted? version = .ok wanted ∧ Installable.select us id wanted = some u := by
  cases hwanted : wanted? version with
  | error f =>
    cases (findUnit_of_unwanted hwanted s id w).symm.trans h
  | ok wanted =>
    rw [findUnit_of_wanted hwanted] at h
    obtain ⟨us, v', -, h⟩ := exists_of_bind_ok h
    refine ⟨us, wanted, rfl, ?_⟩
    cases hselect : Installable.select us id wanted with
    | some x =>
      rw [hselect] at h
      cases h
      rfl
    | none =>
      rw [hselect] at h
      obtain ⟨_, _, -, h⟩ := exists_of_bind_ok h
      cases h

theorem exists_of_findFirst {ss : List Source} (h : findFirst id version ss w = .ok (.inl u) v) :
    ∃ s ∈ ss, ∃ w₁ w₂, findUnit s id version w₁ = .ok u w₂ := by
  induction ss generalizing w with
  | nil => cases h
  | cons s ss ih =>
    rw [findFirst] at h
    obtain ⟨found, w₁, hattempt, h⟩ := exists_of_bind_ok h
    cases found with
    | inl u' =>
      cases h
      refine ⟨s, List.mem_cons_self, w, v, ?_⟩
      unfold findFirst.attempt at hattempt
      cases hfind : findUnit s id version w with
      | ok x w' =>
        rw [hfind] at hattempt
        cases hattempt
        rfl
      | error f w' =>
        rw [hfind] at hattempt
        dsimp only at hattempt
        split at hattempt <;> cases hattempt
    | inr f =>
      obtain ⟨found, w₂, hrest, h⟩ := exists_of_bind_ok h
      cases found with
      | inl u' =>
        cases h
        obtain ⟨t, ht, hfind⟩ := ih hrest
        exact ⟨t, List.mem_cons_of_mem s ht, hfind⟩
      | inr fs => cases h

theorem exists_of_findRequested {ss : List Source} {token : String}
    (h : findRequested ss token w = .ok u v) :
    ∃ s ∈ ss, ∃ w₁ w₂,
      findUnit s (Request.ofText token).id (Request.ofText token).versionValue w₁ = .ok u w₂ := by
  unfold findRequested at h
  obtain ⟨found, w', hfirst, h⟩ := exists_of_bind_ok h
  cases found with
  | inl u' =>
    cases h
    exact exists_of_findFirst hfirst
  | inr fs => cases h

end Operation

/-! ### Repositories in memory -/

namespace Workspace

variable {w₀ w : Workspace} {id : String} {version : Value} {wanted : Option Version}

def Has (w : Workspace) (p : Installable → Prop) (s : Source) : Prop :=
  ∃ us, w.units? s = some us ∧ ∃ u ∈ us, p u

theorem Serves.addressed (h : w₀.Serves w) : w.Addressed := by
  intro s r url hr _ hi
  obtain ⟨name, hname⟩ := (h.inMemory s r hr).identity
  cases hname.symm.trans hi

/-- A search in a repository finds what is selected among its units, if it can be read and has any. -/
theorem Serves.findUnit (h : w₀.Serves w) (hwanted : wanted? version = .ok wanted) (s : Source)
    (id : String) : ∃ v, w₀.Serves v ∧
      ((∃ us front u, w₀.units? s = some us ∧
          FirstOf (Installable.IsWanted us id wanted) us front u ∧
          Operation.findUnit s id version w = .ok u v) ∨
        ¬w₀.Has (Installable.Fits id wanted) s ∧
          ∃ f, Operation.findUnit s id version w = .error f v ∧ f.kind = .missing) := by
  obtain ⟨v, hv, hlist⟩ := h.list s
  refine ⟨v, hv, ?_⟩
  cases hunits : w₀.units? s with
  | none =>
    rw [hunits] at hlist
    refine Or.inr ⟨?_, _, by rw [findUnit_of_wanted hwanted, bind_of_error hlist], rfl⟩
    rintro ⟨us, hus, -⟩
    cases hunits.symm.trans hus
  | some us =>
    rw [hunits] at hlist
    obtain ⟨hfound, hmissing⟩ := findUnit_of_list h.addressed hlist hwanted id
    cases hselect : Installable.select us id wanted with
    | some u =>
      obtain ⟨front, hfirst⟩ := Installable.select_eq_some_iff.mp hselect
      exact Or.inl ⟨us, front, u, rfl, hfirst, (hfound u).mpr hselect⟩
    | none =>
      refine Or.inr ⟨?_, hmissing.mpr hselect⟩
      rintro ⟨us', hus', u, hu, hfits⟩
      obtain rfl := Option.some.inj (hunits.symm.trans hus')
      exact Installable.select_eq_none_iff.mp hselect u hu hfits

/-- Of several repositories the first one that has a unit that fits is the one it is found in. -/
theorem Serves.findFirst (h : w₀.Serves w) (hwanted : wanted? version = .ok wanted) {ss : List Source}
    {s : Source} (hs : s ∈ ss) (hhas : w₀.Has (Installable.Fits id wanted) s) :
    ∃ before t us front u v, FirstOf (w₀.Has (Installable.Fits id wanted)) ss before t ∧
      w₀.units? t = some us ∧ FirstOf (Installable.IsWanted us id wanted) us front u ∧
      Operation.findFirst id version ss w = .ok (.inl u) v := by
  induction ss generalizing w with
  | nil => cases hs
  | cons t ss ih =>
    obtain ⟨v, hv, ⟨us, front, u, hus, hfirst, hfound⟩ | ⟨hnot, f, herror, hkind⟩⟩ :=
      h.findUnit hwanted t id
    · have ht : w₀.Has (Installable.Fits id wanted) t := ⟨us, hus, u, hfirst.mem, hfirst.holds.fits⟩
      exact ⟨[], t, us, front, u, v, .head ht ss, hus, hfirst, findFirst_of_found hfound ss⟩
    · have hss : s ∈ ss := by
        obtain rfl | hss := List.mem_cons.mp hs
        · exact absurd hhas hnot
        · exact hss
      obtain ⟨before, t', us, front, u, v', hbefore, hus, hfirst, hfound⟩ := ih hv hss
      have hmissing : f.isMissing := by rw [Failure.isMissing, hkind]
      exact ⟨t :: before, t', us, front, u, v', hbefore.cons hnot, hus, hfirst,
        findFirst_of_missing herror hmissing hfound⟩

end Workspace

/-! ### Several repositories -/

namespace Operation

variable {id : String} {version : Value} {w : Workspace}

def attempts (id : String) (version : Value) :
    List Source → Workspace → List (Except Failure Installable)
  | [], _ => []
  | s :: ss, w => answerOf (findUnit s id version w) ::
      attempts id version ss (endWorld (findUnit s id version w))

theorem length_attempts (id : String) (version : Value) (ss : List Source) (w : Workspace) :
    (attempts id version ss w).length = ss.length := by
  induction ss generalizing w with
  | nil => rfl
  | cons s ss ih => rw [attempts, List.length_cons, ih, List.length_cons]

/-- As long as repositories only say that there is no such unit, the first unit that one of them has
is found; where none has one, each says why. -/
theorem findFirst_cases {ss : List Source}
    (h : ∀ f, .error f ∈ attempts id version ss w → f.isMissing) : ∃ v,
      (∃ u, .ok u ∈ attempts id version ss w ∧ findFirst id version ss w = .ok (.inl u) v) ∨
        ∃ fs : List Failure, attempts id version ss w = fs.map .error ∧
          findFirst id version ss w = .ok (.inr fs) v := by
  induction ss generalizing w with
  | nil => exact ⟨w, Or.inr ⟨[], rfl, rfl⟩⟩
  | cons s ss ih =>
    rw [attempts] at h ⊢
    cases hfound : findUnit s id version w with
    | ok u v => exact ⟨v, Or.inl ⟨u, List.mem_cons_self, findFirst_of_found hfound ss⟩⟩
    | error f v =>
      rw [hfound] at h
      have hmissing : f.isMissing := h f List.mem_cons_self
      obtain ⟨v', ⟨u, hu, hrest⟩ | ⟨fs, hfs, hrest⟩⟩ := ih fun g hg => h g (List.mem_cons_of_mem _ hg)
      · exact ⟨v', Or.inl ⟨u, List.mem_cons_of_mem _ hu, findFirst_of_missing hfound hmissing hrest⟩⟩
      · refine ⟨v', Or.inr ⟨f :: fs, ?_, findFirst_of_missing hfound hmissing hrest⟩⟩
        rw [List.map_cons, ← hfs]
        rfl

def requestAttempts (ss : List Source) (token : String) (w : Workspace) :
    List (Except Failure Installable) :=
  attempts (Request.ofText token).id (Request.ofText token).versionValue ss w

/-- A request leads to the first repository that has a unit that fits, and there to the first unit that
is wanted. -/
def LeadsTo (ss : List Source) (token id : String) (wanted : Option Version) (w : Workspace) : Prop :=
  ∃ before t us front u v, FirstOf (w.Has (Installable.Fits id wanted)) ss before t ∧
    w.units? t = some us ∧ FirstOf (Installable.IsWanted us id wanted) us front u ∧
    findRequested ss token w = .ok u v

theorem leadsTo_of_serves {ss : List Source} {s : Source} {token : String} {wanted : Option Version}
    {r : Request} (hw : w.Serves w) (htoken : Request.ofText token = r)
    (hwanted : wanted? r.versionValue = .ok wanted) (hs : s ∈ ss)
    (hhas : w.Has (Installable.Fits r.id wanted) s) : LeadsTo ss token r.id wanted w := by
  obtain ⟨before, t, us, front, u, v, hbefore, hus, hfirst, hfound⟩ := hw.findFirst hwanted hs hhas
  refine ⟨before, t, us, front, u, v, hbefore, hus, hfirst, ?_⟩
  rw [findRequested, htoken]
  exact bind_of_ok hfound

/-- A version that leads to itself is read as it is written. -/
theorem isSteady_of_leadsTo {ss : List Source} {id : String} (hid : IsName id) {v : ConstructedVersion}
    (hv : ConstructedVersion.isQualifier v.qualifier.toList)
    (h : LeadsTo ss (id ++ ":" ++ v.text) id (some v.toVersion) w) : v.IsSteady := by
  obtain ⟨before, s, us, front, u, w', -, -, hfirst, hfound⟩ := h
  obtain ⟨s', -, w₁, w₂, hfind⟩ := exists_of_findRequested hfound
  rw [Request.ofText_of_constructed hid hv] at hfind
  obtain ⟨us', wanted, hwanted, hselect⟩ := selected_of_findUnit hfind
  obtain ⟨x, hx, rfl⟩ := read_of_wanted? (show Value.text _ ≠ .null from nofun) hwanted
  obtain ⟨front', hselected⟩ := Installable.select_eq_some_iff.mp hselect
  have hread : u.version = x := hselected.holds.fits.2
  have hown : u.version = v.toVersion := hfirst.holds.fits.2
  exact (ConstructedVersion.read_trim_iff hv).mp (hx.trans (congrArg Except.ok (hread.symm.trans hown)))

theorem requestFailure_kind (token : String) (fs : List Failure) :
    ((requestFailure token fs).kind = .unavailable ↔ fs ≠ [] ∧ ∀ f ∈ fs, f.kind = .unavailable) ∧
      ((requestFailure token fs).kind = .unavailable ∨ (requestFailure token fs).kind = .missing) := by
  unfold requestFailure
  dsimp only
  split
  case isTrue h =>
    refine ⟨iff_of_true rfl ?_, Or.inl rfl⟩
    simpa using h
  case isFalse h =>
    refine ⟨iff_of_false nofun ?_, Or.inr rfl⟩
    simpa using h

theorem findRequested_cases {ss : List Source} {token : String}
    (h : ∀ f, .error f ∈ requestAttempts ss token w → f.isMissing) : ∃ v,
      (∃ u, .ok u ∈ requestAttempts ss token w ∧ findRequested ss token w = .ok u v) ∨
        ∃ fs : List Failure, requestAttempts ss token w = fs.map .error ∧
          findRequested ss token w = .error (requestFailure token fs) v := by
  obtain ⟨v, ⟨u, hu, hfound⟩ | ⟨fs, hfs, hfound⟩⟩ := findFirst_cases h
  · exact ⟨v, Or.inl ⟨u, hu, bind_of_ok hfound⟩⟩
  · exact ⟨v, Or.inr ⟨fs, hfs, bind_of_ok hfound⟩⟩

/-- For every unit of a repository in memory that can be read, the latest one of its id is found under
the id alone. One of its id and version is found under both, exactly if the version is steady; others
that can be constructed are written as what is not read as they are. Where repositories only lack what is
asked for, a request fails if each of them does; it fails because none could be reached exactly where
there are some and none of them could. -/
theorem findRequested_outcome (w : Workspace) (ss : List Source) :
    ((∀ r ∈ w.repositories, r.InMemory) → ∀ s ∈ ss, ∀ us, w.units? s = some us → ∀ u ∈ us,
      IsName u.id → LeadsTo ss (u.id ++ ":") u.id none w ∧
        ∀ v : ConstructedVersion, ConstructedVersion.isQualifier v.qualifier.toList →
          v.toVersion = u.version →
            (LeadsTo ss (u.id ++ ":" ++ v.text) u.id (some u.version) w ↔ v.IsSteady)) ∧
    ∀ token, (∀ f, .error f ∈ requestAttempts ss token w → f.isMissing) →
      ((∃ f v, findRequested ss token w = .error f v) ↔
        ∀ x ∈ requestAttempts ss token w, ∃ f, x = .error f) ∧
      ∀ f v, findRequested ss token w = .error f v →
        (f.kind = .unavailable ↔
          ss ≠ [] ∧ ∀ g, .error g ∈ requestAttempts ss token w → g.kind = .unavailable) ∧
        (f.kind = .unavailable ∨ f.kind = .missing) := by
  refine ⟨fun hw s hs us hus u hu hid => ?_, fun token hmissing => ?_⟩
  · have hserves := Workspace.serves_of_inMemory hw
    refine ⟨leadsTo_of_serves hserves (Request.ofText_of_id hid) wanted?_null hs ⟨us, hus, u, hu, rfl⟩,
      fun v hv hversion => ?_⟩
    rw [← hversion]
    refine ⟨isSteady_of_leadsTo hid hv, fun hsteady => ?_⟩
    have hwanted := wanted?_of_read (show Value.text _ ≠ .null from nofun)
      ((ConstructedVersion.read_trim_iff hv).mpr hsteady)
    exact leadsTo_of_serves hserves (Request.ofText_of_constructed hid hv) hwanted hs
      ⟨us, hus, u, hu, rfl, hversion.symm⟩
  · obtain ⟨v, ⟨u, hu, hfound⟩ | ⟨fs, hfs, hfailed⟩⟩ := findRequested_cases hmissing
    · rw [hfound]
      refine ⟨iff_of_false ?_ fun hall => ?_, nofun⟩
      · rintro ⟨f, v', ⟨⟩⟩
      · obtain ⟨f, hf⟩ := hall _ hu
        cases hf
    · have hkinds := requestFailure_kind token fs
      have hlength : fs ≠ [] ↔ ss ≠ [] := by
        have h := congrArg List.length hfs
        rw [requestAttempts, length_attempts, List.length_map] at h
        rw [← List.length_pos_iff, ← List.length_pos_iff, h]
      have hmem (g : Failure) : .error g ∈ requestAttempts ss token w ↔ g ∈ fs := by
        simp [hfs]
      rw [hfailed]
      refine ⟨iff_of_true ⟨_, _, rfl⟩ ?_, ?_⟩
      · rw [hfs]
        exact List.forall_mem_map.mpr fun f _ => ⟨f, rfl⟩
      · rintro f v' ⟨⟩
        simpa only [hmem, hlength] using hkinds

namespace Sample

open Resolution.Sample (memory first second third one)

def spaced (version : Version) : Installable :=
  .build unitNamespace "a:b c" version [] [] [] none

def row : Workspace where
  repositories := #[{ memory "first" [spaced one] with isOffline := true },
    memory "second" [standIn], memory "third" [spaced one, spaced two]]

def rowed : List Source := [first, second, third]

def lineEnded : Version := ⟨1, 0, 0, "a\n"⟩

def trailing : Workspace where
  repositories := #[memory "first" [spaced lineEnded]]

def gone : Source := ⟨.folder "/none", 0⟩

def away : Workspace := { repositories := #[{ identity := .folder "/none" }] }

end Sample

open Sample

theorem inMemory_row : ∀ r ∈ row.repositories, r.InMemory := by
  simp only [row, List.mem_toArray, List.forall_mem_cons, List.not_mem_nil, false_imp_iff,
    implies_true, and_true]
  exact ⟨⟨⟨_, rfl⟩, nofun⟩, ⟨⟨_, rfl⟩, nofun⟩, ⟨_, rfl⟩, nofun⟩

theorem lookup?_away : away.files.lookup? "/none" = none := by
  have hstart : away.files.start "/none" = [] := if_pos (by simp)
  have hpath : FileTree.checkPath "/none" = .ok "/none" := rfl
  have hlocate : away.files.locate "/none" = .error .absent := by
    rw [FileTree.locate, hpath]
    change away.files.walk (away.files.start "/none") _ = _
    rw [hstart]
    rfl
  rw [FileTree.lookup?, hlocate]

theorem attempts_away : requestAttempts [gone] "a" away = [.error (.noFolder "/none")] := by
  have hpath : Repository.manifestPath away.files away.conventions "/none" =
      .error (.noFolder "/none") := by
    rw [Repository.manifestPath, FileTree.isFile, FileTree.isFolder, lookup?_away]
    rfl
  have hs : away.repository? gone = some { identity := .folder "/none" } := rfl
  have hlist : answerOf (list gone away) = .error (.noFolder "/none") :=
    answerOf_list hs rfl (.absent hpath)
  have hfind := (tells_list gone away).find_error "a" .null none _ wanted?_null hlist
  exact congrArg (· :: []) hfind

theorem findRequested_outcome_row :
    (∀ r ∈ row.repositories, r.InMemory) ∧
    LeadsTo rowed "a:b c:1.0.0" "a:b c" (some Resolution.Sample.one) row ∧
    ¬LeadsTo rowed "a:b c:True.0.0" "a:b c" (some Resolution.Sample.one) row ∧
    LeadsTo rowed "a:b c:" "a:b c" none row ∧
    ∃ f v, findRequested [gone] "a" away = .error f v ∧ f.kind = .unavailable := by
  obtain ⟨hlisted, -⟩ := findRequested_outcome row rowed
  obtain ⟨hplain, hversioned⟩ := hlisted inMemory_row Resolution.Sample.third (by decide) _ rfl
    (spaced Resolution.Sample.one) List.mem_cons_self ⟨by decide, by decide⟩
  obtain ⟨-, hfails⟩ := findRequested_outcome away [gone]
  have hmissing : ∀ f, .error f ∈ requestAttempts [gone] "a" away → f.isMissing := by
    rw [attempts_away]
    rintro f ⟨⟩
    · rfl
    · contradiction
  obtain ⟨hall, hkind⟩ := hfails "a" hmissing
  have hevery : ∀ x ∈ requestAttempts [gone] "a" away, ∃ f, x = .error f := by
    rw [attempts_away]
    simp
  obtain ⟨f, v, hf⟩ := hall.mpr hevery
  refine ⟨inMemory_row, (hversioned ⟨.number 1, .number 0, .number 0, ""⟩ (by decide) rfl).mpr ?_,
    fun hleads => ?_, hplain, f, v, hf, (hkind f v hf).1.mpr ⟨nofun, ?_⟩⟩
  · refine ⟨?_, by decide⟩
    simp only [ConstructedVersion.components, List.forall_mem_cons]
    exact ⟨⟨1, rfl, by decide⟩, ⟨0, rfl, by decide⟩, ⟨0, rfl, by decide⟩, List.forall_mem_nil _⟩
  · have hsteady := (hversioned ⟨.truth true, .number 0, .number 0, ""⟩ (by decide) rfl).mp hleads
    obtain ⟨_, ⟨⟩, -⟩ := hsteady.numbers (.truth true) List.mem_cons_self
  rw [attempts_away]
  simp [Failure.kind, Failure.quotes, Failure.kindAsSaid]

/-- A unit whose version ends in a line feed is not found under its id and version. -/
theorem not_leadsTo_trailing : ¬∀ (w : Workspace) (ss : List Source),
    (∀ r ∈ w.repositories, r.InMemory) → ∀ s ∈ ss, ∀ us, w.units? s = some us → ∀ u ∈ us,
      IsName u.id → ConstructedVersion.isQualifier u.version.qualifier.toList →
        LeadsTo ss (u.id ++ ":" ++ u.version.text) u.id (some u.version) w := by
  intro hall
  have hmemory : ∀ r ∈ trailing.repositories, r.InMemory := by
    simp only [trailing, List.mem_toArray, List.forall_mem_cons, List.not_mem_nil, false_imp_iff,
      implies_true, and_true]
    exact ⟨⟨_, rfl⟩, nofun⟩
  have hleads := hall trailing [first] hmemory first List.mem_cons_self _ rfl (spaced lineEnded)
    List.mem_cons_self ⟨by decide, by decide⟩ (by decide)
  have hsteady : (⟨.number 1, .number 0, .number 0, "a\n"⟩ : ConstructedVersion).IsSteady :=
    isSteady_of_leadsTo (show IsName "a:b c" from ⟨by decide, by decide⟩) (by decide) hleads
  exact hsteady.ending (by decide)

end Operation

end Provision
