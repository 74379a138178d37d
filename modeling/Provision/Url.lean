import Provision.Url.Address

namespace Provision

open Provision.Text

structure Url where
  scheme : List Char := []
  authority : List Char := []
  path : List Char := []
  query : List Char := []
  fragment : List Char := []
  deriving DecidableEq

namespace Url

def isSchemeChar (c : Char) : Bool :=
  c.isAlphanum || c = '+' || c = '-' || c = '.'

def cutScheme (usual cs : List Char) : List Char × List Char :=
  match cutAt (· = ':') cs with
  | (first :: name, some rest) =>
    if first.isAlpha && name.all isSchemeChar then ((first :: name).map Char.toLower, rest)
    else (usual, cs)
  | _ => (usual, cs)

def endsAuthority (c : Char) : Bool :=
  c = '/' || c = '?' || c = '#'

def cutAuthority : List Char → List Char × List Char
  | '/' :: '/' :: rest =>
    (rest.takeWhile fun c => !endsAuthority c, rest.dropWhile fun c => !endsAuthority c)
  | cs => ([], cs)

/-- Characters that stand for others, delimiters of an authority among them. -/
def hidesDelimiter (c : Char) : Bool :=
  [0x2047, 0x2048, 0x2049, 0x2100, 0x2101, 0x2105, 0x2106, 0x2A74, 0xFE13, 0xFE16, 0xFE55, 0xFE56,
    0xFE5F, 0xFE6B, 0xFF03, 0xFF0F, 0xFF1A, 0xFF1F, 0xFF20].contains c.toNat

def placeIn (authority : List Char) : List Char :=
  match cutAtLast (· = '@') authority with
  | some (_, place) => place
  | none => authority

/-- Whether an authority with brackets has them around a host and nothing else: no text stands in
front of them, and at most a port behind. Brackets of the user alone leave the host without them. -/
def hasAddress (authority : List Char) : Bool :=
  let place := placeIn authority
  match cutAt (· = '[') place with
  | (before, some bracketed) =>
    let (host, rest) := cutAt (· = ']') bracketed
    before.isEmpty && rest.all (fun port => port.isEmpty || port.head? = some ':') &&
      Address.isHost host
  | (_, none) => Address.isHost (cutAt (· = ':') place).1

def isAuthority (cs : List Char) : Bool :=
  cs.contains '[' == cs.contains ']' && (!cs.contains '[' || hasAddress cs) &&
    !cs.any hidesDelimiter

/-- Control characters and spaces, which do not count at the start of a locator. -/
def isLeading (c : Char) : Bool :=
  c.toNat ≤ 0x20

/-- Reads a text without its tabs and line ends; `usual` is the scheme of a text that has none. -/
def ofChars? (usual cs : List Char) : Option Url :=
  let cs := (cs.dropWhile isLeading).filter fun c => !(c = '\t' || c = '\r' || c = '\n')
  let (scheme, rest) := cutScheme usual cs
  let (authority, rest) := cutAuthority rest
  let (rest, fragment) := cutAt (· = '#') rest
  let (path, query) := cutAt (· = '?') rest
  if isAuthority authority then
    some ⟨scheme, authority, path, query.getD [], fragment.getD []⟩
  else none

def hierarchical : List String :=
  ["ftp", "http", "gopher", "nntp", "telnet", "imap", "wais", "file", "mms", "https", "shttp",
    "snews", "prospero", "rtsp", "rtspu", "rsync", "svn", "svn+ssh", "sftp", "nfs", "git",
    "git+ssh", "ws", "wss"]

def isHierarchical (scheme : List Char) : Bool :=
  hierarchical.contains (String.ofList scheme)

def hierarchy (u : Url) : List Char :=
  let rooted := if u.path.isEmpty || u.path.head? = some '/' then u.path else '/' :: u.path
  let bare := u.authority.isEmpty && (!isHierarchical u.scheme || startsWith ['/', '/'] u.path)
  if bare then u.path else '/' :: '/' :: u.authority ++ rooted

def write (u : Url) : List Char :=
  (if u.scheme.isEmpty then [] else u.scheme ++ [':']) ++ u.hierarchy ++
    (if u.query.isEmpty then [] else '?' :: u.query) ++
    (if u.fragment.isEmpty then [] else '#' :: u.fragment)

def hostAndPort (u : Url) : List Char × List Char :=
  let place := placeIn u.authority
  match cutAt (· = '[') place with
  | (_, some bracketed) =>
    let (host, rest) := cutAt (· = ']') bracketed
    (host, (cutAt (· = ':') (rest.getD [])).2.getD [])
  | (_, none) =>
    let (host, port) := cutAt (· = ':') place
    (host, port.getD [])

end Url

end Provision
