import Provision.Csv
import Provision.Json.Writer
import Provision.Resolution.Traversal

namespace Provision

open Provision.Resolution

structure ReportedUnit where
  id : String
  version : String
  repository : Option String

structure Report where
  mode : IncludeMode
  units : List ReportedUnit
  bundles : List Bundle
  features : List Feature
  failed : List Requirement

namespace Report

variable {σ : Type}

def reportUnit (A : Access σ) (u : Installable) : EStateM Failure σ ReportedUnit := do
  if !u.version.isWritable then throw .numeral
  let repository ← match u.owner with
    | none => pure none
    | some s => some <$> A.describe s
  return ⟨u.id, u.version.text, repository⟩

/-- Whether the versions of what units come to can be written, and the ranges that are not met. -/
def isWritable (R : Result) : Bool :=
  R.bundles.items.all (fun b => b.version.isWritable) &&
    R.features.items.all (fun f => f.version.isWritable) && R.failed.all fun q => q.range.isWritable

def ofResult (A : Access σ) (R : Result) : EStateM Failure σ Report := do
  let units ← R.units.items.mapM (reportUnit A)
  if !isWritable R then throw .numeral
  return ⟨R.mode, units, R.bundles.items, R.features.items, R.failed⟩

def object (fields : List (String × Value)) : Value :=
  .map (fields.map fun (name, v) => (.text name, v))

def unitValue (u : ReportedUnit) : Value :=
  object [("id", .text u.id), ("version", .text u.version),
    ("repository", (u.repository.map Value.text).getD .null)]

def bundleValue (b : Bundle) : Value :=
  object [("id", .text b.id), ("version", .text b.version.text), ("location", .text b.location),
    ("fragment", b.isFragment), ("singleton", b.isSingleton)]

def featureValue (f : Feature) : Value :=
  object [("id", .text f.id), ("version", .text f.version.text), ("location", .text f.location)]

def requirementValue (r : Requirement) : Value :=
  object [("namespace", .text r.namespaceName), ("name", .text r.name),
    ("range", .text r.range.text), ("optional", .bool r.optional)]

def toValue (r : Report) : Value :=
  object [("mode", .text r.mode.text), ("units", .list (r.units.map unitValue)),
    ("bundles", .list (r.bundles.map bundleValue)),
    ("features", .list (r.features.map featureValue)),
    ("failedRequirements", .list (r.failed.map requirementValue))]

def json (r : Report) : List String :=
  Json.prettyPieces r.toValue

def header : List String := ["Kind", "ID", "Version", "Location", "Repository"]

def rows (r : Report) : List (List String) :=
  header :: r.units.map (fun u => ["unit", u.id, u.version, "", u.repository.getD ""]) ++
    r.bundles.map (fun b => ["bundle", b.id, b.version.text, b.location, ""]) ++
    r.features.map (fun f => ["feature", f.id, f.version.text, f.location, ""]) ++
    r.failed.map fun q => ["failed-requirement", q.name, q.range.text, "", q.namespaceName]

def csv (r : Report) : List String :=
  Csv.lines r.rows

end Report

end Provision
