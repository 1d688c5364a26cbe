namespace Readiness.Json

/-! # Faults of a JSON text

A text that is not JSON has one first fault: what is wrong, and where. The place
is given as a line and a column, both found by counting the bytes up to it.
-/

/-- What is wrong with a text. -/
inductive Cause where
  | endInValue
  | endInList
  | endInObject
  | endInString
  | expectedValue
  | expectedName
  | expectedListEnd
  | expectedObjectEnd
  | expectedColon
  | keyNotString
  | trailingComma
  | trailingCharacters
  | controlCharacter
  | invalidEscape
  | loneSurrogate
  | unfinishedSurrogatePair
  | invalidCodePoint
  | invalidNumber
  | numberOutOfRange
  | tooDeep
deriving DecidableEq, Repr

/-- The words for a cause. -/
def Cause.message : Cause → String
  | .endInValue => "EOF while parsing a value"
  | .endInList => "EOF while parsing a list"
  | .endInObject => "EOF while parsing an object"
  | .endInString => "EOF while parsing a string"
  | .expectedValue => "expected value"
  | .expectedName => "expected ident"
  | .expectedListEnd => "expected `,` or `]`"
  | .expectedObjectEnd => "expected `,` or `\x7d`"
  | .expectedColon => "expected `:`"
  | .keyNotString => "key must be a string"
  | .trailingComma => "trailing comma"
  | .trailingCharacters => "trailing characters"
  | .controlCharacter => "control character (\\u0000-\\u001F) found while parsing a string"
  | .invalidEscape => "invalid escape"
  | .loneSurrogate => "lone leading surrogate in hex escape"
  | .unfinishedSurrogatePair => "unexpected end of hex escape"
  | .invalidCodePoint => "invalid unicode code point"
  | .invalidNumber => "invalid number"
  | .numberOutOfRange => "number out of range"
  | .tooDeep => "recursion limit exceeded"

/-- A place in a text: lines count from one, and a column is the number of bytes since
the line began. -/
structure Position where
  line : Nat
  column : Nat
deriving DecidableEq, Repr

/-- The byte that ends a line. -/
def lineFeed : UInt8 := 10

/-- The place after these bytes. -/
def Position.after (bytes : List UInt8) : Position where
  line := 1 + bytes.count lineFeed
  column := (bytes.reverse.takeWhile (· != lineFeed)).length

/-- The first fault of a text, and the place where it shows. -/
structure Fault where
  cause : Cause
  position : Position
deriving DecidableEq, Repr

/-- The words for a fault. -/
def Fault.message (fault : Fault) : String :=
  fault.cause.message ++ " at line " ++ toString fault.position.line ++
    " column " ++ toString fault.position.column

end Readiness.Json
