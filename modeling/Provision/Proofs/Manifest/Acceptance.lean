import Provision.Proofs.Manifest

namespace Provision.Manifest

open Provision.Text

variable {key : String} {entry : List (Value × Value)} {origin label : String} {v : Value}
  {d : Document} {vs ws : List Value} {c : Conventions} {owner : Option Source}
  {us : List Installable}

/-- A value is a unit in the documented shape: its parts are lists, or absent, or null. -/
abbrev Documented (c : Conventions) (owner : Option Source) : Value → Installable → Prop :=
  Stated (StatesUnit Lists c owner)

def Listed (v : Value) : Prop :=
  ∀ entry, v.opened = .map entry →
    ∀ key ∈ ["requires", "provides", "artifacts"], ∃ vs, Lists key entry vs

theorem Lists.unique (h : Lists key entry vs) (h' : Enumerates key entry ws) : vs = ws :=
  Except.ok.inj (h.enumerates.symm.trans h')

theorem Enumerates.lists (h : Enumerates key entry vs) (hlists : ∃ ws, Lists key entry ws) :
    Lists key entry vs := by
  obtain ⟨ws, hws⟩ := hlists
  obtain rfl := hws.unique h
  exact hws

theorem lists_of_documentOf (h : documentOf origin v = .ok d) : ∃ vs, Lists "units" d vs := by
  unfold documentOf at h
  split at h
  · rename_i entries _
    split at h
    · rename_i hnone
      cases h
      exact ⟨[], .none (by rw [get, Option.map_eq_none_iff.mp hnone]; rfl)⟩
    · rename_i xs hlist
      cases h
      obtain ⟨x, hx, hopened⟩ := Option.map_eq_some_iff.mp hlist
      exact ⟨xs, .list (by rw [get, hx]; exact hopened)⟩
    · cases h
  · cases h

theorem exists_documentOf_of_load {cs : List Char} (h : (load cs origin).result = .ok d) :
    ∃ v, documentOf origin v = .ok d := by
  unfold load at h
  split at h
  · obtain ⟨v, -, hv⟩ := bind_eq_ok_iff.mp h
    exact ⟨v, hv⟩
  · split at h
    · exact ⟨_, h⟩
    · cases h
    · obtain ⟨v, -, hv⟩ := bind_eq_ok_iff.mp h
      exact ⟨v, hv⟩

theorem Documented.stated {u : Installable} (h : Documented c owner v u) :
    Stated (StatesUnit Enumerates c owner) v u := by
  obtain ⟨entry, hmap, hid, hversion, ⟨rs, hrs, hrequires⟩, ⟨ks, declared, ns, hks, hprovides⟩,
    ⟨as, has, hartifacts⟩, howner⟩ := h
  exact ⟨entry, hmap, hid, hversion, ⟨rs, hrs.enumerates, hrequires⟩,
    ⟨ks, declared, ns, hks.enumerates, hprovides⟩, ⟨as, has.enumerates, hartifacts⟩, howner⟩

theorem documented_of_stated {u : Installable} (h : Stated (StatesUnit Enumerates c owner) v u)
    (hlisted : Listed v) : Documented c owner v u := by
  obtain ⟨entry, hmap, hid, hversion, ⟨rs, hrs, hrequires⟩, ⟨ks, declared, ns, hks, hprovides⟩,
    ⟨as, has, hartifacts⟩, howner⟩ := h
  have hlists := hlisted entry hmap
  exact ⟨entry, hmap, hid, hversion, ⟨rs, hrs.lists (hlists _ (by simp)), hrequires⟩,
    ⟨ks, declared, ns, hks.lists (hlists _ (by simp)), hprovides⟩,
    ⟨as, has.lists (hlists _ (by simp)), hartifacts⟩, howner⟩

/-- A document of the documented shape is accepted with a unit for each entry. Where the parts of its
entries are lists it is accepted in this shape only, and where they are orderly as well anything else
makes it malformed. In general a part is what can be enumerated, and a failure may be that of a value
that has no text, makes up no number or cannot be enumerated. -/
theorem units_of_documentOf (hd : documentOf origin v = .ok d) (c : Conventions) (label : String)
    (owner : Option Source) :
    ∃ vs, Lists "units" d vs ∧
      (∀ us, List.Forall₂ (Documented c owner) vs us → units c label owner d = .ok us) ∧
      ((∀ x ∈ vs, Listed x) → ∀ us, units c label owner d = .ok us →
        List.Forall₂ (Documented c owner) vs us) ∧
      (c.unitNamespace.isWritable → (∀ x ∈ vs, OrderlyUnit x) → ∀ f,
        units c label owner d = .error f → f.kind = .malformed) ∧
      (∀ us, units c label owner d = .ok us ↔
        List.Forall₂ (Stated (StatesUnit Enumerates c owner)) vs us) ∧
      ∀ f, units c label owner d = .error f → f.Rejects := by
  obtain ⟨vs, hvs⟩ := lists_of_documentOf hd
  have hstated (us : List Installable) : units c label owner d = .ok us ↔
      List.Forall₂ (Stated (StatesUnit Enumerates c owner)) vs us := by
    rw [units_eq_ok_iff]
    constructor
    · rintro ⟨ws, hws, hus⟩
      exact hvs.unique hws ▸ hus
    · exact fun hus => ⟨vs, hvs.enumerates, hus⟩
  refine ⟨vs, hvs, fun us hus => ?_, fun hlisted us hus => ?_, fun hc horderly f hf => ?_, hstated,
    fun f hf => (blames_units c label owner d hf).1⟩
  · exact (hstated us).mpr (hus.imp fun _ _ => Documented.stated)
  · have hboth := (List.forall₂_and_left vs us).mpr ⟨hlisted, (hstated us).mp hus⟩
    exact hboth.imp fun _ _ h => documented_of_stated h.2 h.1
  · exact (blames_units c label owner d hf).2 ⟨hc, vs, hvs, horderly⟩

namespace Sample

def entryOf (version : String) (requires : Value) : Value :=
  .map [(.text "id", .text "app"), (.text "version", .text version), (.text "requires", requires)]

def manifestOf (entries : List Value) : Value :=
  .map [(.text "units", .list entries)]

def nameless : Value := .map [(.text "name", .text " "), (.text "range", .text "[1.0,2.0)")]

end Sample

open Sample

theorem orderlyUnit_nameless : OrderlyUnit (entryOf "1.0" (.list [.text "lib", nameless])) := by
  have hversion : IsNumerate "1.0".toList := isNumerate_of_decimal rfl (by decide)
  have hrange : IsNumerate "[1.0,2.0)".toList := isNumerate_of_decimal rfl (by decide)
  refine ⟨rfl, ?_⟩
  rintro _ ⟨⟩
  refine ⟨hversion, ⟨_, .list rfl, ?_⟩, ⟨[], .none rfl, List.forall_mem_nil _⟩,
    ⟨[], .none rfl, List.forall_mem_nil _⟩⟩
  refine List.forall_mem_cons.mpr ⟨nofun, List.forall_mem_singleton.mpr ?_⟩
  rintro _ ⟨⟩
  exact hrange

theorem units_of_documentOf_nameless :
    ∃ d, documentOf "units.yaml" (manifestOf [entryOf "1.0" (.list [.text "lib", nameless])]) = .ok d ∧
      ∃ vs, Lists "units" d vs ∧ (∀ x ∈ vs, OrderlyUnit x) ∧
        (¬∃ us, List.Forall₂ (Documented {} none) vs us) ∧
        ∃ f, units {} "first" none d = .error f ∧ f.kind = .malformed := by
  have hd : documentOf "units.yaml" (manifestOf [entryOf "1.0" (.list [.text "lib", nameless])]) =
      .ok [(.text "units", .list [entryOf "1.0" (.list [.text "lib", nameless])])] := rfl
  obtain ⟨vs, hvs, hdocumented, -, hmalformed, -⟩ := units_of_documentOf hd {} "first" none
  obtain rfl : vs = [entryOf "1.0" (.list [.text "lib", nameless])] := hvs.unique rfl
  have horderly : ∀ x ∈ [entryOf "1.0" (.list [.text "lib", nameless])], OrderlyUnit x :=
    List.forall_mem_singleton.mpr orderlyUnit_nameless
  have herror : units {} "first" none
      [(.text "units", .list [entryOf "1.0" (.list [.text "lib", nameless])])] =
        .error (.blank "requirement name" (.text " ")) := rfl
  refine ⟨_, hd, _, hvs, horderly, ?_, _, herror, hmalformed rfl horderly _ herror⟩
  rintro ⟨us, hus⟩
  cases herror.symm.trans (hdocumented us hus)

theorem not_malformed_of_number :
    ¬∀ (origin : String) (v : Value) (d : Document), documentOf origin v = .ok d →
      ∀ (c : Conventions) (label : String) (owner : Option Source) (f : Failure),
        units c label owner d = .error f → f.kind = .malformed := by
  intro hall
  have hd : documentOf "units.yaml" (manifestOf [entryOf "1" (.int 5)]) =
      .ok [(.text "units", .list [entryOf "1" (.int 5)])] := rfl
  have herror : units {} "first" none [(.text "units", .list [entryOf "1" (.int 5)])] =
      .error .wrongType := rfl
  cases hall _ _ _ hd _ _ _ _ herror

end Provision.Manifest
