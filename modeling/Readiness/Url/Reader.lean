import Readiness.Number.Decimal
import Readiness.Url.Basic

namespace Readiness.Url

/-! # Reading URLs

A text is cleaned first, and taken apart at its first `#` and its first `?`. What stands in
front of them either begins with a scheme and stands for itself, or leads somewhere from
another URL.
-/

/-! ## Taking a text apart -/

/-- Whether a character is dropped at the ends of a text. -/
def isOuterBlank (c : Char) : Bool := c ≤ ' '

/-- Whether a character is dropped wherever it stands. -/
def isLineMark (c : Char) : Bool := c == '\t' || c == '\n' || c == '\r'

/-- A text without what is dropped from it. -/
def clean (text : List Char) : List Char :=
  ((text.dropWhile isOuterBlank).reverse.dropWhile isOuterBlank).reverse.filter
    (!isLineMark ·)

/-- What stands in front of the first mark, and what stands behind it. -/
def cut (mark : Char) (text : List Char) : List Char × Option (List Char) :=
  match text.span (· != mark) with
  | (front, _ :: back) => (front, some back)
  | (front, []) => (front, none)

/-- A text taken apart. -/
structure Reference where
  body : List Char
  query : Option (List Char)
  fragment : Option (List Char)
deriving DecidableEq, Repr

/-- Takes a text apart. -/
def Reference.ofText (text : List Char) : Reference :=
  let (front, fragment) := cut '#' (clean text)
  let (body, query) := cut '?' front
  ⟨body, query, fragment⟩

/-! ## Authorities -/

/-- What stands behind the last `@`, and what stands in front of it. -/
def cutLast (text : List Char) : Option (List Char) × List Char :=
  match text.reverse.span (· != '@') with
  | (back, _ :: front) => (some front.reverse, back.reverse)
  | (back, []) => (none, back.reverse)

/-- The credentials in a text. An empty password is none, and nothing at all is no
credentials. -/
def Credentials.ofText? (text : List Char) : Option Credentials :=
  let (user, password) := cut ':' text
  -- a colon with nothing behind it is dropped
  let password := password.filter fun password => !password.isEmpty
  if user.isEmpty && password.isNone then none
  else some ⟨encode userinfoSet user, password.map (encode userinfoSet)⟩

/-- Takes a text apart at its first colon outside brackets. -/
def cutPort (bracketed : Bool) : List Char → List Char × Option (List Char)
  | [] => ([], none)
  | c :: text =>
    if c == ':' && !bracketed then ([], some text)
    else
      let (host, port) := cutPort (c == '[' || (bracketed && c != ']')) text
      (c :: host, port)

/-- Reads a port. It is absent if it has no digits or is the one that the scheme implies. -/
def readPort? (scheme : Scheme) (digits : List Char) : Option (Option UInt16) :=
  if digits.isEmpty then some none
  else do
    let n ← (Decimal.readDigits 65535 0 digits).toOption
    let port := UInt16.ofNat n
    return if scheme.defaultPort? = some port then none else some port

variable [Idna]

/-- Reads a host that is not empty. -/
def readHost? (scheme : Scheme) (text : List Char) : Option Host :=
  if text.isEmpty then none
  else if scheme.isSpecial then Host.readSpecial? text
  else Host.readVerbatim? text

/-- Reads an authority, and gives what is left of the text: a backslash ends a port, also
where it does not separate. -/
def Authority.read? (scheme : Scheme) (text : List Char) : Option (Authority × List Char) := do
  let (credentials, place) := cutLast text
  let (host, port) := cutPort false place
  let (digits, rest) := (port.getD []).span (· != '\\')
  return (⟨credentials.bind Credentials.ofText?, ← readHost? scheme host,
    ← readPort? scheme digits⟩, rest)

/-! ## URLs that stand for themselves -/

/-- What the query of a scheme cannot hold. -/
def querySetOf (scheme : Scheme) : Char → Bool :=
  if scheme.isSpecial then specialQuerySet else querySet

/-- The URL with these parts, and with the query and the fragment of a reference. -/
def ofParts (scheme : Scheme) (authority : Authority) (path : Path) (reference : Reference) : Url :=
  ⟨scheme, authority, path, reference.query.map (encode (querySetOf scheme)),
    reference.fragment.map (encode fragmentSet)⟩

/-- The segments of a text. -/
def segments (scheme : Scheme) (text : List Char) : List (List Char) :=
  text.splitOnP scheme.isSeparator

/-- Reads the path behind an authority. It needs no separator in front of it, and only a
special scheme makes a path of nothing at all. -/
def readPath (scheme : Scheme) (text : List Char) : Path :=
  match text with
  | [] => if scheme.isSpecial then [[]] else []
  | c :: path => Path.follow [] (segments scheme (if scheme.isSeparator c then path else text))

/-- Reads an authority and the path behind it. -/
def readPlace? (scheme : Scheme) (text : List Char) (reference : Reference) : Option Url := do
  let (authority, path) := text.span (!scheme.isSeparator ·)
  let (authority, rest) ← Authority.read? scheme authority
  return ofParts scheme authority (readPath scheme (rest ++ path)) reference

/-- The name of the machine at hand. -/
def localName : List Char := ['l', 'o', 'c', 'a', 'l', 'h', 'o', 's', 't']

/-- Reads the server of a file. A drive in its place is none, and neither is the machine at
hand. -/
def readFileHost? (text : List Char) : Option Host :=
  if Path.isDrive text then none
  else (readHost? .file text).filter (· != .domain localName)

/-- Reads the server of a file and the path behind it. A path that enters a drive leaves the
server behind. -/
def readFile? (text : List Char) (reference : Reference) : Option Url := do
  let (host, path) := text.span (!Scheme.file.isSeparator ·)
  let host ← readFileHost? host
  let segments := segments .file (path.drop 1)
  if Path.entersDrive [] segments then none
  return ofParts .file ⟨none, host, none⟩ (Path.follow [] segments).trimmed reference

/-- Reads what stands behind the scheme of a URL. Two slashes begin a server. A special
scheme needs none of them and does not mind more, but a file needs two. -/
def readBehind? (scheme : Scheme) (text : List Char) (reference : Reference) : Option Url :=
  match scheme, text with
  | .file, first :: second :: place =>
    if scheme.isSeparator first && scheme.isSeparator second then readFile? place reference
    else none
  | .file, _ => none
  | .other _, '/' :: '/' :: place => readPlace? scheme place reference
  | .other _, _ => none
  | _, _ => readPlace? scheme (text.dropWhile scheme.isSeparator) reference

/-- Reads a URL. -/
def read? (text : List Char) : Option Url := do
  let reference := Reference.ofText text
  let (scheme, rest) ← Scheme.split? reference.body
  readBehind? scheme rest reference

end Readiness.Url
