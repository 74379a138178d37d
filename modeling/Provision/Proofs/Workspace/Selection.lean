import Provision.Proofs.Installable
import Provision.Proofs.Workspace.Retrying

namespace Provision

open Provision.Resolution Provision.Operation

/-- A list begins with certain elements, and the one behind them is its first one of a kind. -/
structure FirstOf {α : Type} (p : α → Prop) (as front : List α) (a : α) : Prop where
  listed : ∃ back, as = front ++ a :: back
  holds : p a
  fails : ∀ b ∈ front, ¬p b

namespace FirstOf

variable {α : Type} {p q : α → Prop} {as front front' : List α} {a b : α}

theorem mem (h : FirstOf p as front a) : a ∈ as := by
  obtain ⟨back, rfl⟩ := h.listed
  exact List.mem_append_right _ List.mem_cons_self

theorem append (h : FirstOf p as front a) (bs : List α) : FirstOf p (as ++ bs) front a := by
  obtain ⟨back, rfl⟩ := h.listed
  exact ⟨⟨back ++ bs, by rw [List.append_assoc, List.cons_append]⟩, h.holds, h.fails⟩

theorem head (ha : p a) (as : List α) : FirstOf p (a :: as) [] a :=
  ⟨⟨as, rfl⟩, ha, nofun⟩

theorem cons (h : FirstOf p as front a) (hb : ¬p b) : FirstOf p (b :: as) (b :: front) a := by
  obtain ⟨back, rfl⟩ := h.listed
  exact ⟨⟨back, rfl⟩, h.holds, List.forall_mem_cons.mpr ⟨hb, h.fails⟩⟩

theorem of_cons (h : FirstOf p (b :: as) front a) :
    front = [] ∧ b = a ∨ ∃ front', front = b :: front' ∧ ¬p b ∧ FirstOf p as front' a := by
  obtain ⟨back, hback⟩ := h.listed
  cases front with
  | nil => exact Or.inl ⟨rfl, (List.cons.inj hback).1⟩
  | cons c front' =>
    obtain ⟨rfl, rfl⟩ := List.cons.inj hback
    obtain ⟨hc, hfront⟩ := List.forall_mem_cons.mp h.fails
    exact Or.inr ⟨front', rfl, hc, ⟨back, rfl⟩, h.holds, hfront⟩

theorem concat (h : ∀ b ∈ as, ¬p b) (ha : p a) : FirstOf p (as ++ [a]) as a :=
  ⟨⟨[], rfl⟩, ha, h⟩

theorem length_le_of_holds (h : FirstOf p as front a) (h' : FirstOf q as front' b) (hb : p b) :
    front.length ≤ front'.length := by
  obtain ⟨back, hback⟩ := h.listed
  obtain ⟨back', hback'⟩ := h'.listed
  by_contra hlt
  rw [hback] at hback'
  obtain ⟨rest, rfl, hrest⟩ | ⟨rest, rfl, hrest⟩ := List.append_eq_append_iff.mp hback'
  · rw [List.length_append] at hlt
    omega
  · cases rest with
    | nil => simp at hlt
    | cons c rest =>
      obtain ⟨rfl, -⟩ := List.cons.inj hrest
      exact h.fails b (by simp) hb

theorem unique (h : FirstOf p as front a) (h' : FirstOf p as front' b) : front = front' ∧ a = b := by
  have hlength := Nat.le_antisymm (h.length_le_of_holds h' h'.holds) (h'.length_le_of_holds h h.holds)
  obtain ⟨back, hback⟩ := h.listed
  obtain ⟨back', hback'⟩ := h'.listed
  obtain ⟨hfront, htail⟩ := List.append_inj (hback.symm.trans hback') hlength
  exact ⟨hfront, (List.cons.inj htail).1⟩

theorem exists_of_mem (ha : a ∈ as) (h : p a) : ∃ front b, FirstOf p as front b := by
  induction as with
  | nil => cases ha
  | cons b as ih =>
    by_cases hb : p b
    · exact ⟨[], b, .head hb as⟩
    · obtain rfl | ha := List.mem_cons.mp ha
      · exact absurd h hb
      · obtain ⟨front, c, hfirst⟩ := ih ha
        exact ⟨b :: front, c, hfirst.cons hb⟩

theorem exists_iff_find? {p : α → Bool} :
    (∃ front, FirstOf (fun a => p a) as front a) ↔ as.find? p = some a := by
  rw [List.find?_eq_some_iff_append]
  constructor
  · rintro ⟨front, ⟨back, hback⟩, ha, hfails⟩
    exact ⟨ha, front, back, hback, by simpa using hfails⟩
  · rintro ⟨ha, front, back, hback, hfails⟩
    exact ⟨front, ⟨back, hback⟩, ha, by simpa using hfails⟩

end FirstOf

namespace Installable

variable {units : List Installable} {id : String} {u x : Installable}

def IsOf (id : String) (version : Version) (u : Installable) : Prop :=
  u.id = id ∧ u.version = version

/-- A unit has an id, and none of several units with that id is of a greater version. -/
def IsLatestOf (units : List Installable) (id : String) (u : Installable) : Prop :=
  u.id = id ∧ ∀ x ∈ units, x.id = id → x.version ≤ u.version

def Fits (id : String) : Option Version → Installable → Prop
  | none, u => u.id = id
  | some version, u => u.IsOf id version

def IsWanted (units : List Installable) (id : String) : Option Version → Installable → Prop
  | none => IsLatestOf units id
  | some version => IsOf id version

theorem IsWanted.fits {wanted : Option Version} (h : IsWanted units id wanted u) :
    u.Fits id wanted := by
  cases wanted with
  | none => exact h.1
  | some version => exact h

theorem IsLatestOf.of_concat (h : IsLatestOf (units ++ [x]) id u) : IsLatestOf units id u :=
  ⟨h.1, fun y hy => h.2 y (List.mem_append_left _ hy)⟩

theorem isLatestOf_concat (h : IsLatestOf units id u) (hx : x.id = id → x.version ≤ u.version) :
    IsLatestOf (units ++ [x]) id u := by
  refine ⟨h.1, fun y hy hyid => ?_⟩
  obtain hy | hy := List.mem_append.mp hy
  · exact h.2 y hy hyid
  · obtain rfl := List.mem_singleton.mp hy
    exact hx hyid

/-- The first of the greatest units stays so when a unit that is no greater comes last. -/
theorem firstOf_latest_concat {front : List Installable}
    (h : FirstOf (IsLatestOf units id) units front u) (hx : x.id = id → x.version ≤ u.version) :
    FirstOf (IsLatestOf (units ++ [x]) id) (units ++ [x]) front u :=
  ⟨(h.append [x]).listed, isLatestOf_concat h.holds hx, fun y hy hlatest =>
    h.fails y hy hlatest.of_concat⟩

theorem select_none_cases (units : List Installable) (id : String) :
    (select units id none = none ∧ ∀ u ∈ units, u.id ≠ id) ∨
      ∃ u front, select units id none = some u ∧ FirstOf (IsLatestOf units id) units front u := by
  -- A unit behind the others takes the place of the one found so far by a greater version only.
  induction units using List.reverseRecOn with
  | nil => exact Or.inl ⟨rfl, nofun⟩
  | append_singleton units x ih =>
    by_cases hx : x.id = id
    case neg =>
      have hselect : select (units ++ [x]) id none = select units id none := by
        simp [select, List.filter_append, hx]
      rw [hselect]
      obtain ⟨hnone, hne⟩ | ⟨u, front, hu, hfirst⟩ := ih
      · refine Or.inl ⟨hnone, fun y hy => ?_⟩
        obtain hy | hy := List.mem_append.mp hy
        · exact hne y hy
        · exact List.mem_singleton.mp hy ▸ hx
      · exact Or.inr ⟨u, front, hu, firstOf_latest_concat hfirst (absurd · hx)⟩
    case pos =>
      have hselect : select (units ++ [x]) id none = Collection.later (select units id none) x := by
        simp [select, List.filter_append, hx]
      rw [hselect]
      obtain ⟨hnone, hne⟩ | ⟨u, front, hu, hfirst⟩ := ih
      · have hlatest : IsLatestOf (units ++ [x]) id x :=
          isLatestOf_concat ⟨hx, fun y hy hyid => absurd hyid (hne y hy)⟩ fun _ => Version.le_refl _
        exact Or.inr ⟨x, units, by rw [hnone]; rfl, .concat (fun y hy h => hne y hy h.1) hlatest⟩
      · rw [hu, Collection.later]
        by_cases hlt : u.version < x.version
        · have hle : u.version ≤ x.version := Version.le_iff_lt_or_eq.mpr (Or.inl hlt)
          have hlatest : IsLatestOf (units ++ [x]) id x := isLatestOf_concat
            ⟨hx, fun y hy hyid => Version.le_trans (hfirst.holds.2 y hy hyid) hle⟩
            fun _ => Version.le_refl _
          refine Or.inr ⟨x, units, if_pos hlt, .concat (fun y hy h => ?_) hlatest⟩
          have hge := h.2 x (List.mem_append_right _ (List.mem_singleton_self x)) hx
          exact Version.not_lt_of_le
            (Version.le_trans hge (hfirst.holds.2 y hy h.1)) hlt
        · exact Or.inr ⟨u, front, if_neg hlt,
            firstOf_latest_concat hfirst fun _ => Version.le_of_not_lt hlt⟩

theorem select_eq_some_iff {wanted : Option Version} : select units id wanted = some u ↔
    ∃ front, FirstOf (IsWanted units id wanted) units front u := by
  cases wanted with
  | some version =>
    rw [select, ← FirstOf.exists_iff_find?]
    simp only [Bool.and_eq_true, decide_eq_true_iff]
    rfl
  | none =>
    obtain ⟨hnone, hne⟩ | ⟨x, front, hx, hfirst⟩ := select_none_cases units id
    · rw [hnone]
      refine ⟨nofun, ?_⟩
      rintro ⟨front, hfirst⟩
      exact absurd hfirst.holds.1 (hne u hfirst.mem)
    · rw [hx]
      constructor
      · rintro ⟨⟩
        exact ⟨front, hfirst⟩
      · rintro ⟨front', hfirst'⟩
        rw [(hfirst.unique hfirst').2]

theorem select_eq_none_iff {wanted : Option Version} :
    select units id wanted = none ↔ ∀ u ∈ units, ¬u.Fits id wanted := by
  cases wanted with
  | some version => simp [select, Fits, IsOf]
  | none =>
    obtain ⟨hnone, hne⟩ | ⟨x, front, hx, hfirst⟩ := select_none_cases units id
    · exact iff_of_true hnone hne
    · refine iff_of_false (hx ▸ Option.some_ne_none x) fun hne => ?_
      exact hne x hfirst.mem hfirst.holds.1

/-- Of the units of the greatest version the first one is the first one of its version as well. -/
theorem firstOf_of_latest {front : List Installable}
    (h : FirstOf (IsLatestOf units id) units front u) :
    FirstOf (IsOf id u.version) units front u := by
  refine ⟨h.listed, ⟨h.holds.1, rfl⟩, ?_⟩
  rintro x hx ⟨hid, hversion⟩
  exact h.fails x hx ⟨hid, fun y hy hyid => hversion ▸ h.holds.2 y hy hyid⟩

end Installable

/-! ### Addresses of what was read -/

/-- The address of every remote repository that was read can be written. -/
def Workspace.Addressed (w : Workspace) : Prop :=
  ∀ s r url, w.repository? s = some r → r.memo ≠ none → r.identity = .remote url →
    ∃ target, Url.publicText url = .ok target

theorem Workspace.addressed_of_unread {w : Workspace} (h : ∀ r ∈ w.repositories, r.memo = none) :
    w.Addressed :=
  fun _ r _ hr hm _ => absurd (h r (Array.mem_of_getElem? hr)) hm

namespace Operation

variable {s : Source} {w v : Workspace} {units : List Installable} {c : Conventions}

theorem lasting_addressed : Lasting Workspace.Addressed where
  note m w h s r url hr := h s r url (by rwa [Workspace.repository?_note] at hr)
  http _ _ h := h
  rename t name w h s r url hr := by
    rw [Workspace.repository?_modify] at hr
    split at hr
    · obtain ⟨q, hq, rfl⟩ := Option.map_eq_some_iff.mp hr
      exact h s q url hq
    · exact h s r url hr

theorem exists_target_of_load {r : Repository} {url : String} (hi : r.identity = .remote url)
    (h : load s r w = .ok units v) : ∃ target, Url.publicText url = .ok target := by
  unfold load at h
  rw [hi] at h
  obtain ⟨target, _, htarget, -⟩ := exists_of_bind_ok h
  refine ⟨target, ?_⟩
  cases hurl : Url.publicText url with
  | ok target' =>
    rw [hurl] at htarget
    cases htarget
    rfl
  | error f =>
    rw [hurl] at htarget
    cases htarget

theorem keeps_list_of_addressed (t : Source) : Keeps Workspace.Addressed (list t) := by
  refine keeps_list_of lasting_addressed fun w r us v _ hr _ hl hv => ?_
  have hstart : (w.repository? t).map Repository.identity = some r.identity := by
    rw [hr, Option.map_some]
  have hidentity := keeps_load (Workspace.lasting_identity t (some r.identity)) t r hstart
  rw [hl] at hidentity
  intro s q url hq hm hi
  rw [Workspace.repository?_modify] at hq
  split at hq
  case isTrue hts =>
    obtain ⟨p, hp, rfl⟩ := Option.map_eq_some_iff.mp hq
    have hp' : v.repository? t = some p := (Workspace.repository?_congr hts v).trans hp
    have hsame : (v.repository? t).map Repository.identity = some r.identity := hidentity
    rw [hp', Option.map_some] at hsame
    exact exists_target_of_load ((Option.some.inj hsame).symm.trans hi) hl
  case isFalse => exact hv s q url hq hm hi

theorem of_list_of_addressed (hw : w.Addressed) (h : list s w = .ok units v) :
    (∃ name, describe s v = .ok name v) ∧ list s v = .ok units v := by
  have hv := keeps_list_of_addressed s hw
  rw [h] at hv
  cases hs : w.repository? s with
  | none =>
    rw [list_of_none hs] at h
    cases h
    refine ⟨⟨"", ?_⟩, list_of_none hs⟩
    rw [describe, get_bind, hs]
    rfl
  | some r =>
    have hremembered := remembered_of_list_of_some hs h
    obtain ⟨q, hq, hm⟩ := Option.bind_eq_some_iff.mp hremembered
    exact ⟨describe_returns hq fun url hi => hv s q url hq (hm ▸ Option.some_ne_none units) hi,
      list_of_memo hq hm⟩

theorem findUnit_of_list (hw : w.Addressed) (h : list s w = .ok units v) {version : Value}
    {wanted : Option Version} (hwanted : wanted? version = .ok wanted) (id : String) :
    (∀ u, findUnit s id version w = .ok u v ↔ Installable.select units id wanted = some u) ∧
      ((∃ f, findUnit s id version w = .error f v ∧ f.kind = .missing) ↔
        Installable.select units id wanted = none) := by
  rw [findUnit_of_wanted hwanted, bind_of_ok h]
  cases hselect : Installable.select units id wanted with
  | some x =>
    refine ⟨fun u => ⟨?_, ?_⟩, iff_of_false ?_ (Option.some_ne_none x)⟩
    · rintro ⟨⟩
      rfl
    · rintro ⟨⟩
      rfl
    · rintro ⟨f, ⟨⟩, -⟩
  | none =>
    obtain ⟨⟨name, hname⟩, -⟩ := of_list_of_addressed hw h
    dsimp only
    rw [bind_of_ok hname]
    exact ⟨fun u => ⟨nofun, nofun⟩, iff_of_true ⟨_, rfl, rfl⟩ rfl⟩

theorem wanted?_null : wanted? .null = .ok none := rfl

theorem wanted?_of_read {value : Value} {x : Version} (hnull : value ≠ .null)
    (h : Version.ofValue value = .ok x) : wanted? value = .ok (some x) := by
  rw [wanted?, h]
  · rfl
  · exact hnull

theorem read_of_wanted? {value : Value} {wanted : Option Version} (hnull : value ≠ .null)
    (h : wanted? value = .ok wanted) : ∃ x, Version.ofValue value = .ok x ∧ wanted = some x := by
  rw [wanted?] at h
  · obtain ⟨x, hx, rfl⟩ := map_eq_ok_iff.mp h
    exact ⟨x, hx, rfl⟩
  · exact hnull

theorem wanted?_text {x : Version} (h : x.IsReadable) : wanted? (.text x.text) = .ok (some x) :=
  wanted?_of_read nofun (Version.ofChars_text h.isPlain h.isShort)

/-- Where a unit of an id and a version is listed, a probe for exactly that version finds a unit there
or further in front. -/
theorem probe_of_firstOf {id : String} {x : Version} {front : List Installable} {u : Installable}
    (hbuilt : u.IsBuilt c) (h : FirstOf (Installable.IsOf id x) units front u)
    (hlist : list s w = .ok units v) : ∃ r, Requirement.ofFields
        { namespaceName := c.unitNamespace, name := .text id, range := .inr (.exactly x) } = .ok r ∧
      ∃ front' u', FirstOf (fun y => y.satisfies r) units front' u' ∧
        front'.length ≤ front.length ∧ access.probe s r w = .ok (.found u') v := by
  obtain ⟨rfl, rfl⟩ := h.holds
  obtain ⟨r, hr, hsatisfies⟩ := hbuilt.exists_requirement
  refine ⟨r, hr, ?_⟩
  obtain ⟨u', hfind⟩ : ∃ u', units.find? (·.satisfies r) = some u' :=
    Option.isSome_iff_exists.mp (List.find?_isSome.mpr ⟨u, h.mem, hsatisfies⟩)
  obtain ⟨front', hfirst⟩ := FirstOf.exists_iff_find?.mpr hfind
  have hprobe : access.probe s r w = .ok (.found u') v := by
    have hlist' : access.list s w = .ok units v := hlist
    rw [Access.probe, hlist']
    dsimp only
    rw [hfind]
  exact ⟨front', u', hfirst, hfirst.length_le_of_holds h hsatisfies, hprobe⟩

/-- What is found in a repository, as told by the units that it lists. Where a search was made first,
what follows it happens in the workspace it left. -/
structure Selection (c : Conventions) (s : Source) (w v : Workspace) (units : List Installable)
    (id : String) : Prop where
  latest : ∀ u, findUnit s id .null w = .ok u v ↔
    ∃ front, FirstOf (Installable.IsLatestOf units id) units front u
  unknown : (∃ f, findUnit s id .null w = .error f v ∧ f.kind = .missing) ↔ ∀ u ∈ units, u.id ≠ id
  versioned : ∀ version x, version ≠ .null → Version.ofValue version = .ok x → ∀ u,
    findUnit s id version w = .ok u v ↔ ∃ front, FirstOf (Installable.IsOf id x) units front u
  unversioned : ∀ version x, version ≠ .null → Version.ofValue version = .ok x →
    ((∃ f, findUnit s id version w = .error f v ∧ f.kind = .missing) ↔ ∀ u ∈ units, ¬u.IsOf id x)
  /-- The version of the latest unit leads back to its place in the list. -/
  again : ∀ front u, FirstOf (Installable.IsLatestOf units id) units front u →
    FirstOf (Installable.IsOf id u.version) units front u ∧
      findUnit s id (.text u.version.text) v = .ok u v
  /-- Exactly a version is provided no further behind than it is found. -/
  probed : ∀ version x front u, version ≠ .null → Version.ofValue version = .ok x →
    FirstOf (Installable.IsOf id x) units front u →
    ∃ range r, VersionRange.exactlyValue version = .ok range ∧ Requirement.ofFields
        { namespaceName := c.unitNamespace, name := .text id, range := .inr range } = .ok r ∧
      ∃ front' u', FirstOf (fun y => y.satisfies r) units front' u' ∧
        front'.length ≤ front.length ∧ access.probe s r v = .ok (.found u') v

/-- A search by an id finds the first unit of the greatest version, and one by an id and a version the
first unit of that version; they fail where there is none, and agree with each other and with probes. -/
theorem selection_of_list (hw : w.Addressed) (hlist : list s w = .ok units v)
    (hbuilt : ∀ u ∈ units, u.IsBuilt c) (id : String) : Selection c s w v units id := by
  obtain ⟨-, hagain⟩ := of_list_of_addressed hw hlist
  have hv : v.Addressed := by
    have hend := keeps_list_of_addressed s hw
    rwa [hlist] at hend
  obtain ⟨hlatest, hunknown⟩ := findUnit_of_list hw hlist wanted?_null id
  refine ⟨fun u => (hlatest u).trans Installable.select_eq_some_iff,
    hunknown.trans Installable.select_eq_none_iff, ?versioned, ?unversioned, ?again, ?probed⟩
  case versioned =>
    intro version x hnull hx u
    obtain ⟨hfound, -⟩ := findUnit_of_list hw hlist (wanted?_of_read hnull hx) id
    exact (hfound u).trans Installable.select_eq_some_iff
  case unversioned =>
    intro version x hnull hx
    obtain ⟨-, hmissing⟩ := findUnit_of_list hw hlist (wanted?_of_read hnull hx) id
    exact hmissing.trans Installable.select_eq_none_iff
  case again =>
    intro front u hfirst
    have hof := Installable.firstOf_of_latest hfirst
    have hwanted := wanted?_text (hbuilt u hfirst.mem).isReadable
    obtain ⟨hfound, -⟩ := findUnit_of_list hv hagain hwanted id
    exact ⟨hof, (hfound u).mpr (Installable.select_eq_some_iff.mpr ⟨front, hof⟩)⟩
  case probed =>
    intro version x front u hnull hx hfirst
    obtain ⟨r, hr, hprobe⟩ := probe_of_firstOf (hbuilt u hfirst.mem) hfirst hagain
    have hexactly : VersionRange.exactlyValue version = .ok (.exactly x) := by
      rw [VersionRange.exactlyValue, hx]
      rfl
    exact ⟨.exactly x, r, hexactly, hr, hprobe⟩

namespace Sample

open Resolution.Sample (memory first one)

def two : Version := ⟨2, 0, 0, ""⟩

def standIn : Installable :=
  .build unitNamespace "b" one [] [Installable.identity unitNamespace "a" two] [] none

def latest : Installable := .build unitNamespace "a" two [] [] [] none

def pile : List Installable := [standIn, .build unitNamespace "a" one [] [] [] none, latest,
  .build unitNamespace "a" two [Resolution.Sample.asks "p"] [] [] none]

def piled : Workspace := { repositories := #[memory "first" pile] }

end Sample

open Sample

theorem selection_of_list_pile : piled.Addressed ∧ (∀ u ∈ pile, u.IsBuilt {}) ∧
    ∃ v, list Resolution.Sample.first piled = .ok pile v ∧
      Selection {} Resolution.Sample.first piled v pile "a" ∧
      findUnit Resolution.Sample.first "a" .null piled = .ok latest v := by
  have haddressed : piled.Addressed := by
    refine Workspace.addressed_of_unread ?_
    simp [piled, Resolution.Sample.memory]
  have hbuilt : ∀ u ∈ pile, u.IsBuilt {} := by
    have hone : Resolution.Sample.one.IsReadable := ⟨.text "1", rfl⟩
    have htwo : two.IsReadable := ⟨.text "2", rfl⟩
    have ha : IsName "a" := ⟨by decide, by decide⟩
    have hb : IsName "b" := ⟨by decide, by decide⟩
    simp only [pile, List.forall_mem_cons, List.not_mem_nil, false_imp_iff, implies_true, and_true]
    exact ⟨Installable.isBuilt_build hb hone _ _ _ _, Installable.isBuilt_build ha hone _ _ _ _,
      Installable.isBuilt_build ha htwo _ _ _ _, Installable.isBuilt_build ha htwo _ _ _ _⟩
  obtain ⟨v, hv⟩ : ∃ v, list Resolution.Sample.first piled = .ok pile v := ⟨_, rfl⟩
  have hselection := selection_of_list haddressed hv hbuilt "a"
  have hselect : Installable.select pile "a" none = some latest := rfl
  exact ⟨haddressed, hbuilt, v, hv, hselection,
    (hselection.latest latest).mpr (Installable.select_eq_some_iff.mp hselect)⟩

end Operation

end Provision
