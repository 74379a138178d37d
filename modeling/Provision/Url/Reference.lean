import Provision.Url

namespace Provision.Url

open Provision.Text

def relative : List String :=
  ["", "ftp", "http", "gopher", "nntp", "imap", "wais", "file", "https", "shttp", "mms",
    "prospero", "rtsp", "rtspu", "sftp", "svn", "svn+ssh", "ws", "wss"]

def parametric : List String :=
  ["", "ftp", "hdl", "prospero", "http", "imap", "https", "shttp", "rtsp", "rtspu", "sip", "sips",
    "mms", "sftp", "tel"]

def cutParameters (u : Url) : List Char × List Char :=
  if parametric.contains (String.ofList u.scheme) then
    match cutAtLast (· = '/') u.path with
    | some (folder, last) =>
      let (name, parameters) := cutAt (· = ';') last
      (folder ++ '/' :: name, parameters.getD [])
    | none =>
      let (name, parameters) := cutAt (· = ';') u.path
      (name, parameters.getD [])
  else (u.path, [])

def withParameters (path parameters : List Char) : List Char :=
  if parameters.isEmpty then path else path ++ ';' :: parameters

def folderSegments (path : List Char) : List (List Char) :=
  let segments := splitOnChar '/' path
  if segments.getLast? = some [] then segments else segments.dropLast

def dropInnerEmpty : List (List Char) → List (List Char)
  | [] => []
  | first :: rest =>
    first :: rest.dropLast.filter (fun s => !s.isEmpty) ++ rest.getLast?.toList

def resolveSegment (done : List (List Char)) (segment : List Char) : List (List Char) :=
  if segment = ['.', '.'] then done.dropLast
  else if segment = ['.'] then done
  else done ++ [segment]

/-- Follows the segments; a path that ends in one or two dots denotes a folder. -/
def resolveSegments (segments : List (List Char)) : List (List Char) :=
  let done := segments.foldl resolveSegment []
  let last := segments.getLast?
  if last = some ['.'] ∨ last = some ['.', '.'] then done ++ [[]] else done

def joinSegments (segments : List (List Char)) : List Char :=
  List.intercalate ['/'] segments

def joinPath (base path : List Char) : List Char :=
  let own := splitOnChar '/' path
  let segments :=
    if path.head? = some '/' then own else dropInnerEmpty (folderSegments base ++ own)
  let joined := joinSegments (resolveSegments segments)
  if joined.isEmpty then ['/'] else joined

def against (base reference : Url) : Url :=
  let (path, parameters) := reference.cutParameters
  let (basePath, baseParameters) := base.cutParameters
  if !reference.authority.isEmpty then
    { reference with path := withParameters path parameters }
  else if path.isEmpty && parameters.isEmpty then
    { reference with
      authority := base.authority
      path := withParameters basePath baseParameters
      query := if reference.query.isEmpty then base.query else reference.query }
  else
    { reference with
      authority := base.authority
      path := withParameters (joinPath basePath path) parameters }

/-- The locator that a reference denotes within a document; none where one of both is ill-formed. -/
def resolve? (base reference : String) : Option String :=
  if base.isEmpty then some reference
  else if reference.isEmpty then some base
  else do
    let b ← ofChars? [] base.toList
    let r ← ofChars? b.scheme reference.toList
    if r.scheme != b.scheme || !relative.contains (String.ofList r.scheme) then return reference
    return String.ofList (b.against r).write

end Provision.Url
