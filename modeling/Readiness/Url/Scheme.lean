namespace Readiness.Url

/-! # Schemes

Six schemes are special: a backslash separates like a slash in their URLs, and a host is the
name of a machine. Five of them always name a host, and a port that they imply is not
written; files have no port, and may be on no server at all.
-/

/-- What a URL begins with. -/
inductive Scheme where
  | http
  | https
  | ws
  | wss
  | ftp
  | file
  | other (name : List Char)
deriving DecidableEq, Repr

namespace Scheme

/-- The name of a scheme, in lower case. -/
def name : Scheme → List Char
  | .http => ['h', 't', 't', 'p']
  | .https => ['h', 't', 't', 'p', 's']
  | .ws => ['w', 's']
  | .wss => ['w', 's', 's']
  | .ftp => ['f', 't', 'p']
  | .file => ['f', 'i', 'l', 'e']
  | .other name => name

/-- The schemes whose names mean something here. -/
def known : List Scheme := [.http, .https, .ws, .wss, .ftp, .file]

/-- The scheme with this name in lower case. -/
def ofName (name : List Char) : Scheme :=
  (known.find? fun scheme => scheme.name == name).getD (.other name)

/-- Whether URLs of this scheme follow the rules of the web. -/
def isSpecial : Scheme → Bool
  | .http | .https | .ws | .wss | .ftp | .file => true
  | .other _ => false

/-- The port that the scheme implies. -/
def defaultPort? : Scheme → Option UInt16
  | .http | .ws => some 80
  | .https | .wss => some 443
  | .ftp => some 21
  | .file | .other _ => none

/-- Whether a character separates the parts of a URL of this scheme. -/
def isSeparator (scheme : Scheme) (c : Char) : Bool := c == '/' || (c == '\\' && scheme.isSpecial)

/-- Whether a character may stand in the name of a scheme. -/
def isNameChar (c : Char) : Bool := c.isAlphanum || ['+', '-', '.'].contains c

/-- The scheme that a text begins with, and the text behind the colon. -/
def split? (text : List Char) : Option (Scheme × List Char) :=
  match text.span isNameChar with
  | (first :: name, ':' :: rest) =>
    if first.isAlpha then some (ofName ((first :: name).map Char.toLower), rest) else none
  | _ => none

end Scheme
end Readiness.Url
