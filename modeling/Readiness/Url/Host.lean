import Readiness.Url.Address
import Readiness.Url.Idna

namespace Readiness.Url

/-! # Hosts

The host of a special scheme is a name in ASCII or an address; that of any other scheme is a
text.
-/

/-- A host. -/
inductive Host where
  | domain (name : List Char)
  | ipv4 (address : Address4)
  | ipv6 (address : Address6)
  | verbatim (text : List Char)
deriving DecidableEq, Repr

namespace Host

/-- The text of a host. -/
def text : Host → List Char
  | .domain name => name
  | .ipv4 address => address.text
  | .ipv6 address => '[' :: (address.text ++ [']'])
  | .verbatim text => text

/-- Reads the host of a special scheme: an address in brackets, or a name, which may turn
out to be an address. -/
def readSpecial? [Idna] (text : List Char) : Option Host :=
  match text with
  | '[' :: rest =>
    if rest.getLast? = some ']' then (Address6.read? rest.dropLast).map .ipv6 else none
  | _ => do
    let name ← Idna.toAscii? (decode text)
    if name.isEmpty then none
    if Address4.isMeant name then (Address4.read? name).map .ipv4 else some (.domain name)

/-- Reads the host of any other scheme. -/
def readVerbatim? (text : List Char) : Option Host :=
  match text with
  | '[' :: rest =>
    if rest.getLast? = some ']' then (Address6.read? rest.dropLast).map .ipv6 else none
  | _ => if text.any isForbidden then none else some (.verbatim (encode controlSet text))

end Host
end Readiness.Url
