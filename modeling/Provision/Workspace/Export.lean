import Provision.Report
import Provision.Workspace.Access

namespace Provision.Operation

open Provision.Resolution

def encodePieces : List String → ByteArray × Option Text.Unencodable
  | [] => (.empty, none)
  | piece :: rest =>
    match Text.encode piece with
    | .error u => (.empty, some u)
    | .ok bytes =>
      let (others, fault) := encodePieces rest
      (bytes ++ others, fault)

def writeFile (path : String) (content : ByteArray) : Operation Unit := do
  match (← get).files.write path content with
  | .ok files => modify fun w => { w with files := files }
  | .error cause => throw (.file path cause)

/-- Writes pieces to a file one after the other; what stands before a fault stays there. -/
def writePieces (path : String) (pieces : List String) : Operation Unit := do
  let (content, fault) := encodePieces pieces
  writeFile path content
  if let some u := fault then throw (.unencodable u)

/-- Writes a result to a file as a document. The file is opened first, so it is empty where there is no
report. -/
def exportJson (R : Result) (path : String) : Operation Unit := do
  writeFile path .empty
  writePieces path (← Report.ofResult access R).json
  log .info ("JSON file has been successfully exported at: " ++ path)

def exportCsv (R : Result) (path : String) : Operation Unit := do
  writePieces path (← Report.ofResult access R).csv
  log .info ("CSV file has been successfully exported at: " ++ path)

end Provision.Operation
