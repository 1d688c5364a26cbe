import Readiness.Url.Host
import Readiness.Url.Path
import Readiness.Url.Scheme
import Readiness.Url.ServerName

namespace Readiness

/-! # URLs -/

/-- Who asks: a user name, and a password if there is one, both encoded. -/
structure Url.Credentials where
  user : List Char
  password : Option (List Char)
deriving DecidableEq, Repr

/-- Where a server is found. The port is absent if it is the one that the scheme implies. -/
structure Url.Authority where
  credentials : Option Url.Credentials
  host : Url.Host
  port : Option UInt16
deriving DecidableEq, Repr

/-- An address on a server. -/
structure Url where
  scheme : Url.Scheme
  authority : Url.Authority
  path : Url.Path
  query : Option (List Char)
  fragment : Option (List Char)
deriving DecidableEq, Repr

namespace Url

/-! ## Texts -/

/-- A text behind a mark, if there is one. -/
def marked (mark : Char) : Option (List Char) → List Char
  | none => []
  | some text => mark :: text

/-- Credentials and the sign behind them. -/
def Credentials.text (credentials : Credentials) : List Char :=
  credentials.user ++ marked ':' credentials.password ++ ['@']

/-- The text of an authority. -/
def Authority.text (authority : Authority) : List Char :=
  (authority.credentials.map Credentials.text).getD [] ++ authority.host.text ++
    marked ':' (authority.port.map fun port => Nat.toDigits 10 port.toNat)

/-- The text of a URL. -/
def text (url : Url) : List Char :=
  url.scheme.name ++ [':', '/', '/'] ++ url.authority.text ++ url.path.text ++
    marked '?' url.query ++ marked '#' url.fragment

/-- The text that tells where a URL leads. A path is told even if there is none. A drive is
on no server, so a file on it is told without one, and its drive ends with a colon. -/
def told (url : Url) : List Char :=
  match url.scheme, url.path with
  | _, [] => text { url with path := [[]] }
  | .file, [letter, mark] :: path =>
    if Path.isDrive [letter, mark] then
      Scheme.file.name ++ [':', '/', '/'] ++ Path.text ([letter, ':'] :: path) ++
        marked '?' url.query ++ marked '#' url.fragment
    else
      url.text
  | _, _ => url.text

/-! ## What is left out -/

/-- The URL without its fragment, which is never sent. -/
def withoutFragment (url : Url) : Url := { url with fragment := none }

/-- Whether a text decodes to text. -/
def decodesToText (text : List Char) : Bool := (Text.ofBytes? (decode text)).isSome

/-- Whether credentials can be told apart from the address: the user name has to be text,
and something has to be there. -/
def Credentials.areReadable (credentials : Credentials) : Bool :=
  decodesToText credentials.user &&
    (!credentials.user.isEmpty || (credentials.password.map decodesToText).getD false)

/-- The URL without readable credentials, which are not sent as a part of it. -/
def withoutCredentials (url : Url) : Url :=
  if (url.authority.credentials.map Credentials.areReadable).getD false then
    { url with authority := { url.authority with credentials := none } }
  else
    url

/-! ## What can be sent -/

/-- The longest text of a URL in a request. -/
def maxLength : Nat := 65534

/-- The longest name of a scheme in a request. -/
def Scheme.maxLength : Nat := 64

/-- Whether a request can be made to a URL. -/
def isSendable (url : Url) : Bool :=
  decide (url.scheme.name.length ≤ Scheme.maxLength) &&
    ServerName.isValid url.authority.text && decide (url.text.length ≤ maxLength)

end Url
end Readiness
