import Provision.Url
import Provision.Failure
import Provision.Text.Case
import Provision.Text.Numeral
import Provision.Text.Secret

namespace Provision.Url

open Provision.Text

def publicHost (host : List Char) : List Char :=
  lower (host.takeWhile fun c => c != '%') ++ host.dropWhile fun c => c != '%'

/-- The port written behind a host; an empty port and port zero leave no trace. -/
def publicPort (port : List Char) : Except Failure (List Char) :=
  if port.isEmpty then return []
  else if port.all Char.isDigit then
    match Numeral.int? 10 port with
    | some n =>
      if 65535 < n then throw .numeral
      else if n = 0 then return []
      else return ':' :: (toString n).toList
    | none => throw .numeral
  else throw .numeral

def publicForm (u : Url) : Except Failure (List Char) := do
  let (host, port) := u.hostAndPort
  let port ← publicPort port
  return write { scheme := u.scheme, authority := publicHost host ++ port, path := u.path }

/-- What may be shown of a locator; an ill-formed one is shown with its secrets masked. -/
def publicText (url : String) : Except Failure String := do
  if url.isEmpty then return url
  match ofChars? [] url.toList with
  | some u => return String.ofList (← u.publicForm)
  | none => return withoutSecrets url

end Provision.Url
