import Provision.Command.Run

namespace Provision.Program

open Provision.Command

def levelVariable : String := "UNITRESOLVE_LOG_LEVEL"

def usage : String :=
  "usage: [-h] [-r REPOSITORY] -u UNIT [-m MODE] [-o OUTPUT] [-f FORMAT] [--loglevel LEVEL]" ++
    " [--logfile FILE] [-q] [-c CONFIG]"

def readEntry (path : String) : IO (Option Entry) := do
  try
    return some (.file (← IO.FS.readBinFile path))
  catch _ =>
    try
      let _ ← IO.FS.realPath path
      return some .folder
    catch _ => return none

def pathOf (place : List String) : String :=
  "/" ++ Text.join "/" place

/-- Adds the first `n` names of a place to the picture, those that exist. -/
def addPrefix (place : List String) (files : FileTree) (n : Nat) : IO FileTree := do
  let names := place.take n
  if (files.entry? names).isSome then return files
  match ← readEntry (pathOf names) with
  | some e => return files.set names e
  | none => return files

def addPath (files : FileTree) (path : String) : IO FileTree := do
  let folder := (pathOf files.workingFolder).toList
  let absolute := String.ofList (Path.absolute folder path.toList)
  let place := (FileTree.names absolute).filter fun name => !name.isEmpty
  (List.range (place.length + 1)).foldlM (addPrefix place) files

def manifestNames : List String :=
  (({} : Conventions).manifestNames.elements?.getD []).map Value.display

def manifestPaths (location : String) : List String :=
  if Repository.isRemoteLocation location then []
  else location :: manifestNames.map (Repository.within location)

def artifactPaths (w : Workspace) (s : Source) : List String :=
  match s.identity, Operation.list s w with
  | .folder path, .ok units w =>
    let root := Repository.rootFolder w.files path
    units.flatMap fun u => u.artifacts.map fun a => Repository.within root a.path
  | _, _ => []

def pathsRead (c : Configuration) (w : Workspace) : List String :=
  match openAll c.repositories w with
  | .ok sources w => sources.flatMap (artifactPaths w)
  | .error _ _ => []

def picture (a : Arguments) : IO Workspace := do
  let folder := FileTree.names (toString (← IO.FS.realPath "."))
  let files : FileTree := { workingFolder := folder.filter fun name => !name.isEmpty }
  let named := a.config.toList ++ a.output.toList ++ a.logFile.toList ++ ["."]
  let files ← named.foldlM addPath files
  let w : Workspace := { files := files, threshold := Log.Level.warning.rank }
  match Configuration.ofArguments a w with
  | .error _ _ => return w
  | .ok c _ =>
    let files ← (c.repositories.flatMap manifestPaths).foldlM addPath files
    let files ← (pathsRead c { w with files := files }).foldlM addPath files
    return { w with files := files }

def textOf (s : String) : String :=
  String.ofList (Text.ofCharacters s.toList)

def tell (line : String) : IO Unit :=
  IO.eprintln (String.ofList (Text.characters line))

def contentOf? (files : FileTree) (path : String) : Option (List UInt8) :=
  match files.read path with
  | .ok content => some content.toList
  | .error _ => none

def writeOutput (a : Arguments) (before after : Workspace) : IO Unit := do
  if let some path := a.output then
    if contentOf? before.files path ≠ contentOf? after.files path then
      if let .ok content := after.files.read path then IO.FS.writeBinFile path content

def execute (a : Arguments) : IO UInt32 := do
  let before ← picture a
  let level := (← IO.getEnv levelVariable).map textOf
  match run a level before with
  | .error f w =>
    (shownLines a w).forM tell
    tell f.message
    return 1
  | .ok code w =>
    (shownLines a w).forM tell
    writeOutput a before w
    return UInt32.ofNat code.number

end Provision.Program

def main (args : List String) : IO UInt32 := do
  match Provision.Command.Arguments.ofWords (args.map Provision.Program.textOf) with
  | .error .help =>
    IO.println Provision.Program.usage
    return 0
  | .error .misuse =>
    IO.eprintln Provision.Program.usage
    return 2
  | .ok a => Provision.Program.execute a
