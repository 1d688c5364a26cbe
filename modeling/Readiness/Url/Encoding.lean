import Readiness.Text.Hex
import Readiness.Text.Utf8

namespace Readiness.Url

/-! # Percent-encoding

Each part of a URL has a set of characters that it cannot hold as they are. Such a
character is written as the bytes of its encoding, each behind a percent sign. A percent
sign itself stays, so what is encoded already is not encoded again.
-/

/-- A byte behind a percent sign. -/
def encodeByte (b : UInt8) : List Char :=
  ['%', Text.upperHex (b.toNat / 16), Text.upperHex (b.toNat % 16)]

/-- A character, encoded if it is in the set. -/
def encodeChar (set : Char → Bool) (c : Char) : List Char :=
  if set c then (String.utf8EncodeChar c).flatMap encodeByte else [c]

/-- A text with every character of the set encoded. -/
def encode (set : Char → Bool) (text : List Char) : List Char := text.flatMap (encodeChar set)

/-! ## The sets -/

/-- Controls, and everything beyond ASCII. -/
def controlSet (c : Char) : Bool := c < ' ' || '~' < c

/-- What a fragment cannot hold. -/
def fragmentSet (c : Char) : Bool := controlSet c || [' ', '"', '<', '>', '`'].contains c

/-- What a query cannot hold. -/
def querySet (c : Char) : Bool := controlSet c || [' ', '"', '#', '<', '>'].contains c

/-- What the query of a special scheme cannot hold. -/
def specialQuerySet (c : Char) : Bool := querySet c || c == '\''

/-- What a path cannot hold. -/
def pathSet (c : Char) : Bool := fragmentSet c || ['#', '?', '{', '}'].contains c

/-- What a user name or a password cannot hold. -/
def userinfoSet (c : Char) : Bool :=
  pathSet c || ['/', ':', ';', '=', '@', '[', '\\', ']', '^', '|'].contains c

/-! ## Decoding -/

/-- The byte that two hexadecimal digits stand for. -/
def byteOfDigits? (high low : Char) : Option UInt8 := do
  return UInt8.ofNat (16 * (← Text.hexDigit? high) + (← Text.hexDigit? low))

/-- The bytes of a text, with every encoded byte decoded. A percent sign that no two
hexadecimal digits follow stands for itself. -/
def decode : List Char → List UInt8
  | '%' :: high :: low :: text =>
    match byteOfDigits? high low with
    | some b => b :: decode text
    | none => String.utf8EncodeChar '%' ++ decode (high :: low :: text)
  | c :: text => String.utf8EncodeChar c ++ decode text
  | [] => []

end Readiness.Url
