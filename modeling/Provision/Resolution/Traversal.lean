import Provision.Collection
import Provision.Resolution.Search
import Provision.Resolution.State

namespace Provision.Resolution

/-- A unit on the way, with the path that led to it and the requirements still to be settled. -/
structure Frame where
  unit : Installable
  path : String
  pending : List Requirement

structure Progress where
  state : State := {}
  units : Collection Installable := {}
  bundles : Collection Bundle := {}
  features : Collection Feature := {}

variable {σ : Type}

def addBundle (A : Access σ) (p : Progress) (b : Bundle) : EStateM Failure σ Progress := do
  if p.bundles.has b then return p
  A.debug ("Resolve bundle " ++ b.id ++ ":" ++ b.version.text ++ "...")
  return { p with bundles := p.bundles.add b }

def addFeature (A : Access σ) (p : Progress) (f : Feature) : EStateM Failure σ Progress := do
  if p.features.has f then return p
  A.debug ("Resolve feature " ++ f.id ++ ":" ++ f.version.text ++ "...")
  return { p with features := p.features.add f }

/-- The contents of a unit; none where they are missing and nothing missing ends a run. -/
def contents (A : Access σ) (S : Setting) (u : Installable) : EStateM Failure σ Contents :=
  fun w =>
    match A.materialize u w with
    | .ok c w => .ok c w
    | .error f w =>
      if f.isMissing && S.mode = .slice then
        .ok {} (A.note ⟨.warning, "Skipping artifacts of " ++ u.text ++ ": " ++ f.message, []⟩ w)
      else .error f w

def addContents (A : Access σ) (S : Setting) (u : Installable) (p : Progress) :
    EStateM Failure σ Progress := do
  let c ← contents A S u
  let p ← c.bundles.foldlM (addBundle A) p
  c.features.foldlM (addFeature A) p

/-- Whether a unit is among the visited ones; one of its id and version stands for it. -/
def Progress.holds (p : Progress) (u : Installable) : Bool :=
  p.units.has u || p.state.containsUnit u

def visit (A : Access σ) (S : Setting) (u : Installable) (p : Progress) :
    EStateM Failure σ Progress := do
  (p.state.promoted u).forM fun r =>
    A.debug ("Promoting " ++ r.text ++ ", provided by " ++ u.text)
  A.log .info ("Resolve " ++ u.text ++ "...")
  addContents A S u { p with state := p.state.addUnit u, units := p.units.add u }

def enter (A : Access σ) (S : Setting) (u : Installable) (path : String) (p : Progress)
    (stack : List Frame) : EStateM Failure σ (Progress × List Frame) := do
  if p.holds u then
    A.debug ("Skip resolving of " ++ u.text ++ ", already resolved or resolving in progress...")
    return (p, stack)
  else
    let p ← visit A S u p
    return (p, ⟨u, path, u.requires⟩ :: stack)

def settle (A : Access σ) (S : Setting) (r : Requirement) (frame : Frame) (p : Progress)
    (stack : List Frame) : EStateM Failure σ (Progress × List Frame) := do
  if p.state.isResolved r then
    A.debug ("Skip " ++ r.text ++ " because it is already resolved...")
    return (p, stack)
  else if p.state.isFailed r then
    A.debug ("Skip " ++ r.text ++ " because it has already failed...")
    return (p, stack)
  else
    A.debug ("Try to resolve " ++ r.text ++ "...")
    match ← search A S r frame.unit frame.path with
    | .provider u =>
      let path := frame.path ++ " -> " ++ r.name ++ " -> " ++ (← A.label u)
      enter A S u path { p with state := p.state.addResolved r } stack
    | .dropped => return (p, stack)
    | .failed => return ({ p with state := p.state.addFailed r }, stack)

def step (A : Access σ) (S : Setting) (p : Progress) (frame : Frame) (stack : List Frame) :
    EStateM Failure σ (Progress × List Frame) :=
  match frame.pending with
  | [] => return (p, stack)
  | r :: pending => settle A S r frame p ({ frame with pending := pending } :: stack)

/-- How a computation on a world ends. Where repositories answer differently each time a run need not
end, and then it has no ending. -/
abbrev Ending (σ α : Type) := Option (EStateM.Result Failure σ α)

/-- Takes steps until the stack is empty. -/
def Progress.run (A : Access σ) (S : Setting) (p : Progress) (stack : List Frame) (w : σ) :
    Ending σ Progress :=
  match stack with
  | [] => some (.ok p w)
  | frame :: stack =>
    match step A S p frame stack w with
    | .ok (p, stack) w => p |>.run A S stack w
    | .error f w => some (.error f w)
partial_fixpoint

def start (A : Access σ) (S : Setting) (u : Installable) (p : Progress) :
    EStateM Failure σ (Progress × List Frame) := do
  let path ← A.label u
  enter A S u path p []

def resolveUnit (A : Access σ) (S : Setting) (u : Installable) (p : Progress) (w : σ) :
    Ending σ Progress :=
  match start A S u p w with
  | .ok (p, stack) w => p.run A S stack w
  | .error f w => some (.error f w)

def resolveAll (A : Access σ) (S : Setting) :
    List Installable → Progress → σ → Ending σ Progress
  | [], p, w => some (.ok p w)
  | u :: us, p, w =>
    match resolveUnit A S u p w with
    | some (.ok p w) => resolveAll A S us p w
    | ending => ending

structure Result where
  mode : IncludeMode
  units : Collection Installable
  bundles : Collection Bundle
  features : Collection Feature
  failed : List Requirement

def Result.record (R : Result) : Log.Record :=
  ⟨.debug, "Resolution finished", Log.context
    [("event", .text "function_exit"), ("component", .text "resolver"),
      ("action", .text "resolve"), ("mode", .text R.mode.text), ("units", .int R.units.size),
      ("bundles", .int R.bundles.size), ("features", .int R.features.size),
      ("failed", .int R.failed.length)]⟩

def Progress.result (p : Progress) (mode : IncludeMode) : Result :=
  ⟨mode, p.units, p.bundles, p.features, p.state.failed⟩

/-- What a run produces by its ending; without one it fails as one that takes too many steps. -/
def conclude (A : Access σ) (S : Setting) (w : σ) :
    Ending σ Progress → EStateM.Result Failure σ Result
  | some (.ok p w) => .ok (p.result S.mode) (A.note (p.result S.mode).record w)
  | some (.error f w) => .error f w
  | none => .error .exhausted w

def resolve (A : Access σ) (S : Setting) (requested : List Installable) :
    EStateM Failure σ Result := fun w =>
  conclude A S w (resolveAll A S requested {} w)

end Provision.Resolution
