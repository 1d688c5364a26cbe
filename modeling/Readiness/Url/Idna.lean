import Readiness.Url.Encoding

namespace Readiness.Url

/-! # Names beyond ASCII

A name is brought into ASCII before it is looked at. Tables of Unicode say which name in
ASCII stands for one beyond it, and which names there are at all, so who brings names into
ASCII is a parameter of everything that reads a URL. A name arrives as bytes, since it may
have been percent-encoded.
-/

namespace Host

/-- What no host can hold: characters that mean something else in a URL. -/
def isForbidden (c : Char) : Bool :=
  c == '\x00' || c == '\t' || c == '\n' || c == '\r' ||
    [' ', '#', '/', ':', '<', '>', '?', '@', '[', '\\', ']', '^', '|'].contains c

/-- What no name can hold beyond that. -/
def isForbiddenInName (c : Char) : Bool := isForbidden c || controlSet c || c == '%'

end Host

/-- What brings names into ASCII. -/
class Idna where
  /-- The name in ASCII that stands for a name, if there is one. -/
  toAscii? : List UInt8 → Option (List Char)

namespace Idna

/-- What a label begins with that stands for one beyond ASCII. -/
def mark : List Char := ['x', 'n', '-', '-']

/-- Whether a name stands for itself: all of it is ASCII, and no label of it is marked. -/
def isDirect (name : List Char) : Bool :=
  name.all (fun c => decide (c.toNat < 0x80)) &&
    ((name.map Char.toLower).splitOn '.').all (!mark.isPrefixOf ·)

/-- The name in ASCII of a name that stands for itself: the same in lower case, unless it
holds what no name can hold. -/
def directName? (name : List Char) : Option (List Char) :=
  if name.any Host.isForbiddenInName then none else some (name.map Char.toLower)

/-- Without the tables, the names that stand for themselves are known, and no others. -/
instance direct : Idna where
  toAscii? bytes :=
    let name := bytes.map Char.ofUInt8
    if isDirect name then directName? name else none

end Idna
end Readiness.Url
