import Provision.Manifest
import Provision.Workspace

namespace Provision.Operation

open Provision.Text

def eventRecord? (target : String) : Http.Event → Option (String × List (String × Value))
  | .hit => some ("HTTP cache hit", fields "cache_hit" [])
  | .failed attempt reason =>
    some ("HTTP request failed",
      fields "http_exception" [("attempt", .int attempt), ("outcome", .text reason)])
  | .answered attempt status =>
    some ("HTTP response",
      fields "http_response" [("attempt", .int attempt), ("status_code", .int status)])
  | .slept _ | .called => none
where
  fields (event : String) (more : List (String × Value)) : List (String × Value) :=
    [("component", .text "http_client"), ("action", .text "GET"), ("target", .text target),
      ("event", .text event)] ++ more

def traceEvent (url : String) (e : Http.Event) : Operation Unit := do
  if (eventRecord? "" e).isSome && (← get).isTracing then
    match eventRecord? (← ofExcept (Url.publicText url)) e with
    | some (message, context) => trace message (return context)
    | none => return ()

def request (url : String) (headers : Http.Headers) : Operation (Http.Response × List Http.Event) := do
  let w ← get
  let (reply, events, client) := w.http.get url headers (.noted w.isTracing url)
  modify fun w => { w with http := client }
  events.forM (traceEvent url)
  return (← ofExcept reply, events)

def manifestHeaders : Http.Headers :=
  [("Accept", .text "application/json, application/yaml, text/yaml")]

def loadManifest (cs : List Char) (origin : String) : Operation Manifest.Document := do
  let loading := Manifest.load cs origin
  if loading.fellBack then
    log .debug ("YAML parsing of " ++ origin ++ " failed, trying JSON: <yaml error>")
  ofExcept loading.result

def adoptName (s : Source) (d : Manifest.Document) : Operation Unit :=
  modify (Workspace.modifyRepository s fun r =>
    { r with name := match r.name with
        | some name => some name
        | none => Manifest.name? d })

def unitsOf (s : Source) (d : Manifest.Document) : Operation (List Installable) := do
  adoptName s d
  let label ← describe s
  let units ← ofExcept (Manifest.units (← get).conventions label (some s) d)
  log .debug ("Parsed " ++ toString units.length ++ " units from " ++ label)
  return units

def readFile (path : String) : Operation (List Char) := do
  match (← get).files.read path with
  | .error cause => throw (.unreadable path cause)
  | .ok content =>
    match charactersOf? content with
    | some cs => return cs
    | none => throw .undecodable

def loadFolder (s : Source) (path : String) : Operation (List Installable) := do
  let w ← get
  let manifest ← ofExcept (Repository.manifestPath w.files w.conventions path)
  log .debug ("Reading repository manifest " ++ manifest)
  unitsOf s (← loadManifest (← readFile manifest) manifest)

def loadRemote (s : Source) (url : String) : Operation (List Installable) := do
  let target ← ofExcept (Url.publicText url)
  log .info ("Loading repository " ++ target ++ "...")
  let (response, _) ← request url manifestHeaders
  trace "Repository manifest fetched" do
    return [("event", .text "repository_fetch"), ("component", .text "remote_repository"),
      ("status_code", .int response.status), ("target", .text target)]
  if response.status = 0 then throw (.unreachable target response.text)
  if response.status ≠ 200 then throw (.answered target response.status)
  unitsOf s (← loadManifest (characters response.text) target)

def loadMemory (r : Repository) (name : String) : Operation (List Installable) :=
  if r.isOffline then throw (.offline name) else return r.declared

def load (s : Source) (r : Repository) : Operation (List Installable) :=
  match r.identity with
  | .memory name => loadMemory r name
  | .folder path => loadFolder s path
  | .remote url => loadRemote s url

/-- Remembers the units of a repository, so that it is not read again. -/
def remember (s : Source) (units : List Installable) : Operation Unit := do
  modify (Workspace.modifyRepository s fun r => { r with memo := some units })
  trace "Repository loaded" (fields units.length)
where
  fields (count : Nat) : Operation (List (String × Value)) := do
    return [("event", .text "repository_loaded"), ("component", .text "repository"),
      ("target", .text (← describe s)), ("count", .int count)]

def fetch (s : Source) (r : Repository) : Operation (List Installable) := do
  let units ← load s r
  remember s units
  return units

def list (s : Source) : Operation (List Installable) := do
  match (← get).repository? s with
  | none => return []
  | some r =>
    match r.memo with
    | some units => return units
    | none => fetch s r

end Provision.Operation
