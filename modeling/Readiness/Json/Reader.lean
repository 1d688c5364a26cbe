import Readiness.Json.Basic
import Readiness.Json.Fault
import Readiness.Text.Hex
import Readiness.Text.Utf8

namespace Readiness.Json

/-! # Reading JSON

The reader takes one byte at a time. Its state is the stack of brackets that are
still open and the phase it is in; after the last byte the phase says whether the text
was complete. Since a fault is raised by one byte, nothing behind that byte has any
say in it.
-/

/-- An open bracket with what has been read inside it, latest first. An object also
keeps the key whose value is being read. -/
inductive Frame where
  | array (items : List Json)
  | object (members : List (String × Json)) (key : String)

/-- What a string literal is for: a value, or the next key of an object with these members. -/
inductive Purpose where
  | value
  | key (members : List (String × Json))

/-- The place inside a string literal. `hex` holds the bytes of a `\u` escape, latest
first, and the leading surrogate it has to complete. -/
inductive Place where
  | plain
  | escape
  | hex (leading : Option Nat) (seen : List UInt8)
  | pairBackslash (leading : Nat)
  | pairMark (leading : Nat)

/-- A number literal as far as it has been read; digits are kept latest first. -/
inductive Digits where
  | sign
  | whole (negative : Bool) (digits : List (Fin 10))
  | point (negative : Bool) (before : List (Fin 10))
  | fraction (negative : Bool) (before digits : List (Fin 10))
  | mark (mantissa : Numeral)
  | markSign (mantissa : Numeral) (negative : Bool)
  | exponent (mantissa : Numeral) (negative : Bool) (digits : Nat)

/-- What the reader is doing. -/
inductive Phase where
  /-- A value has to start. -/
  | value
  /-- An array was opened. -/
  | firstItem
  /-- A comma was read in an array. -/
  | nextItem
  /-- An object was opened. -/
  | firstKey
  /-- A comma was read in an object with these members. -/
  | nextKey (members : List (String × Json))
  /-- A key was read. -/
  | colon (members : List (String × Json)) (key : String)
  /-- Inside `null`, `true` or `false`, with these characters still to come. -/
  | name (left : List Char) (value : Json)
  /-- Inside a number literal. -/
  | numeral (digits : Digits)
  /-- Inside a string literal with this content, latest byte first. -/
  | text (purpose : Purpose) (content : List UInt8) (place : Place)
  /-- A value is complete. -/
  | after (value : Json)

/-- The state of the reader: the open brackets, innermost first, and the phase. -/
structure State where
  stack : List Frame
  phase : Phase

/-- The state before the first byte. -/
def State.initial : State := ⟨[], .value⟩

/-- White space between tokens. -/
def isBlank (c : Char) : Bool := c == ' ' || c == '\n' || c == '\t' || c == '\r'

/-! ## Numbers -/

/-- The digit that a character stands for. -/
def digit? (c : Char) : Option (Fin 10) :=
  if h : '0'.toNat ≤ c.toNat ∧ c.toNat < '0'.toNat + 10 then
    some ⟨c.toNat - '0'.toNat, by omega⟩
  else
    none

namespace Digits

/-- The numeral with this exponent part. -/
def withExponent (mantissa : Numeral) (negative : Bool) (digits : Nat) : Numeral :=
  { mantissa with exponent := some (if negative then -(digits : Int) else digits) }

/-- The numeral that the literal would be if it ended here. -/
def numeral? : Digits → Option Numeral
  | .whole negative digits => some ⟨negative, digits.reverse, [], none⟩
  | .fraction negative before digits => some ⟨negative, before, digits.reverse, none⟩
  | .exponent mantissa negative digits => some (withExponent mantissa negative digits)
  | _ => none

/-- Adds a digit to the exponent. One that is too large is a fault at that very digit. -/
def pushExponent (mantissa : Numeral) (negative : Bool) (digits : Nat) : Except Cause Digits :=
  if (withExponent mantissa negative digits).exponentOverflows then
    .error .numberOutOfRange
  else
    .ok (.exponent mantissa negative digits)

/-- The literal with one more character, or nothing when the character is not part of it. -/
def push (c : Char) : Digits → Except Cause (Option Digits)
  | .sign =>
    match digit? c with
    | some d => .ok (some (.whole true [d]))
    | none => .error .invalidNumber
  | .whole negative digits =>
    match digit? c with
    | some d =>
      if digits = [Numeral.zeroDigit] then .error .invalidNumber
      else .ok (some (.whole negative (d :: digits)))
    | none =>
      if c = '.' then .ok (some (.point negative digits.reverse))
      else if c = 'e' ∨ c = 'E' then .ok (some (.mark ⟨negative, digits.reverse, [], none⟩))
      else .ok none
  | .point negative before =>
    match digit? c with
    | some d => .ok (some (.fraction negative before [d]))
    | none => .error .invalidNumber
  | .fraction negative before digits =>
    match digit? c with
    | some d => .ok (some (.fraction negative before (d :: digits)))
    | none =>
      if c = 'e' ∨ c = 'E' then .ok (some (.mark ⟨negative, before, digits.reverse, none⟩))
      else .ok none
  | .mark mantissa =>
    match digit? c with
    | some d => (pushExponent mantissa false d).map some
    | none =>
      if c = '+' then .ok (some (.markSign mantissa false))
      else if c = '-' then .ok (some (.markSign mantissa true))
      else .error .invalidNumber
  | .markSign mantissa negative =>
    match digit? c with
    | some d => (pushExponent mantissa negative d).map some
    | none => .error .invalidNumber
  | .exponent mantissa negative digits =>
    match digit? c with
    | some d => (pushExponent mantissa negative (10 * digits + d)).map some
    | none => .ok none

/-- The value of a literal that ends here. -/
def finish (digits : Digits) : Except Cause Json :=
  match digits.numeral? with
  | none => .error .endInValue
  | some numeral => if numeral.overflows then .error .numberOutOfRange else .ok (.number numeral)

end Digits

/-! ## Strings -/

/-- The character that a two-character escape stands for. -/
def shortEscape? : Char → Option Char
  | '"' => some '"'
  | '\\' => some '\\'
  | '/' => some '/'
  | 'b' => some '\x08'
  | 'f' => some '\x0c'
  | 'n' => some '\n'
  | 'r' => some '\r'
  | 't' => some '\t'
  | _ => none

/-- The value of hexadecimal digits, latest first. -/
def hexValue? : List UInt8 → Option Nat
  | [] => some 0
  | b :: seen => do return 16 * (← hexValue? seen) + (← Text.hexDigit? (Char.ofUInt8 b))

/-- Whether a 16-bit unit is the first of a surrogate pair. -/
def isLeading (unit : Nat) : Bool := 0xD800 ≤ unit && unit ≤ 0xDBFF

/-- Whether a 16-bit unit is the second of a surrogate pair. -/
def isTrailing (unit : Nat) : Bool := 0xDC00 ≤ unit && unit ≤ 0xDFFF

/-- The character that a surrogate pair stands for. -/
def pairChar (leading trailing : Nat) : Char :=
  Char.ofNat (0x10000 + (leading - 0xD800) * 0x400 + (trailing - 0xDC00))

/-- Adds a character to content that is kept latest byte first. -/
def pushChar (content : List UInt8) (c : Char) : List UInt8 :=
  (String.utf8EncodeChar c).reverse ++ content

/-- Goes on with the unit of a complete `\u` escape. A pair has its leading unit first,
and only a pair may hold surrogates. -/
def pushUnit (content : List UInt8) (leading : Option Nat) (unit : Nat) :
    Except Cause (List UInt8 × Place) :=
  match leading with
  | some first =>
    if isTrailing unit then .ok (pushChar content (pairChar first unit), .plain)
    else .error .loneSurrogate
  | none =>
    if isTrailing unit then .error .loneSurrogate
    else if isLeading unit then .ok (content, .pairBackslash unit)
    else .ok (pushChar content (Char.ofNat unit), .plain)

/-- One byte inside a string literal, the closing quote excepted. -/
def pushByte (content : List UInt8) (b : UInt8) : Place → Except Cause (List UInt8 × Place)
  | .plain =>
    if Char.ofUInt8 b = '\\' then .ok (content, .escape)
    else if b < 0x20 then .error .controlCharacter
    else .ok (b :: content, .plain)
  | .escape =>
    if Char.ofUInt8 b = 'u' then .ok (content, .hex none [])
    else
      match shortEscape? (Char.ofUInt8 b) with
      | some c => .ok (pushChar content c, .plain)
      | none => .error .invalidEscape
  | .hex leading seen =>
    if seen.length < 3 then .ok (content, .hex leading (b :: seen))
    else
      match hexValue? (b :: seen) with
      | some unit => pushUnit content leading unit
      | none => .error .invalidEscape
  | .pairBackslash leading =>
    if Char.ofUInt8 b = '\\' then .ok (content, .pairMark leading)
    else .error .unfinishedSurrogatePair
  | .pairMark leading =>
    if Char.ofUInt8 b = 'u' then .ok (content, .hex (some leading) [])
    else .error .unfinishedSurrogatePair

/-- Whether a byte closes the literal. -/
def closesText (b : UInt8) : Place → Bool
  | .plain => Char.ofUInt8 b == '"'
  | _ => false

/-- The phase after a string literal. -/
def afterText (purpose : Purpose) (text : String) : Phase :=
  match purpose with
  | .value => .after (.string text)
  | .key members => .colon members text

/-! ## Steps -/

/-- As many brackets as may be open at once. -/
def depthLimit : Nat := 127

/-- Opens a bracket, if one more may be open. -/
def openBracket (stack : List Frame) (phase : Phase) : Except Cause State :=
  if stack.length < depthLimit then .ok ⟨stack, phase⟩ else .error .tooDeep

/-- The first character of a value. -/
def startValue (stack : List Frame) (c : Char) : Except Cause State :=
  match c with
  | '[' => openBracket stack .firstItem
  | '{' => openBracket stack .firstKey
  | '"' => .ok ⟨stack, .text .value [] .plain⟩
  | 'n' => .ok ⟨stack, .name ['u', 'l', 'l'] .null⟩
  | 't' => .ok ⟨stack, .name ['r', 'u', 'e'] (.bool true)⟩
  | 'f' => .ok ⟨stack, .name ['a', 'l', 's', 'e'] (.bool false)⟩
  | '-' => .ok ⟨stack, .numeral .sign⟩
  | _ =>
    match digit? c with
    | some d => .ok ⟨stack, .numeral (.whole false [d])⟩
    | none => .error .expectedValue

/-- The character after a complete value. -/
def stepAfter (stack : List Frame) (value : Json) (c : Char) : Except Cause State :=
  if isBlank c then .ok ⟨stack, .after value⟩
  else
    match stack with
    | [] => .error .trailingCharacters
    | .array items :: outer =>
      if c = ',' then .ok ⟨.array (value :: items) :: outer, .nextItem⟩
      else if c = ']' then .ok ⟨outer, .after (.array (value :: items).reverse)⟩
      else .error .expectedListEnd
    | .object members key :: outer =>
      if c = ',' then .ok ⟨outer, .nextKey ((key, value) :: members)⟩
      else if c = '}' then .ok ⟨outer, .after (.object ((key, value) :: members).reverse)⟩
      else .error .expectedObjectEnd

/-- A character between tokens. -/
def stepBetween (stack : List Frame) (phase : Phase) (c : Char) : Except Cause State :=
  if isBlank c then .ok ⟨stack, phase⟩
  else
    match phase with
    | .firstItem =>
      if c = ']' then .ok ⟨stack, .after (.array [])⟩
      else startValue (.array [] :: stack) c
    | .nextItem => if c = ']' then .error .trailingComma else startValue stack c
    | .firstKey =>
      if c = '}' then .ok ⟨stack, .after (.object [])⟩
      else if c = '"' then .ok ⟨stack, .text (.key []) [] .plain⟩
      else .error .keyNotString
    | .nextKey members =>
      if c = '}' then .error .trailingComma
      else if c = '"' then .ok ⟨stack, .text (.key members) [] .plain⟩
      else .error .keyNotString
    | .colon members key =>
      if c = ':' then .ok ⟨.object members key :: stack, .value⟩
      else .error .expectedColon
    | _ => startValue stack c

/-- A fault raised by a byte. Its place is behind that byte, or `back` bytes before there. -/
structure Refusal where
  cause : Cause
  back : Nat := 0
deriving DecidableEq, Repr

/-- A fault whose place is behind the byte. -/
def atByte {α : Type} (result : Except Cause α) : Except Refusal α :=
  result.mapError fun cause => ⟨cause, 0⟩

/-- The closing quote of a literal. Only now the content is taken for text; a fault in it is
placed as many bytes back as the content has from the fault on. -/
def closeText (stack : List Frame) (purpose : Purpose) (content : List UInt8) :
    Except Refusal State :=
  match Text.decode content.reverse with
  | (text, []) => .ok ⟨stack, afterText purpose (String.ofList text)⟩
  | (_, left) => .error ⟨.invalidCodePoint, left.length⟩

/-- A character after a number literal. The literal ends before it, and so does the place of
a number that is out of range. -/
def closeNumeral (stack : List Frame) (digits : Digits) (c : Char) : Except Refusal State :=
  match digits.finish with
  | .error cause => .error ⟨cause, 1⟩
  | .ok value => atByte (stepAfter stack value c)

/-- One byte. -/
def State.step (state : State) (b : UInt8) : Except Refusal State :=
  match state.phase with
  | .text purpose content place =>
    if closesText b place then closeText state.stack purpose content
    else
      atByte ((pushByte content b place).map fun (content, place) =>
        ⟨state.stack, .text purpose content place⟩)
  | .name left value =>
    match left with
    | [] => atByte (stepAfter state.stack value (Char.ofUInt8 b))
    | c :: left =>
      if Char.ofUInt8 b = c then
        .ok ⟨state.stack, if left.isEmpty then .after value else .name left value⟩
      else
        .error ⟨.expectedName, 0⟩
  | .numeral digits =>
    match digits.push (Char.ofUInt8 b) with
    | .error cause => .error ⟨cause, 0⟩
    | .ok (some digits) => .ok ⟨state.stack, .numeral digits⟩
    | .ok none => closeNumeral state.stack digits (Char.ofUInt8 b)
  | .after value => atByte (stepAfter state.stack value (Char.ofUInt8 b))
  | phase => atByte (stepBetween state.stack phase (Char.ofUInt8 b))

/-- The document, when the text ends after a complete value. -/
def finishAfter (stack : List Frame) (value : Json) : Except Cause Json :=
  match stack with
  | [] => .ok value
  | .array _ :: _ => .error .endInList
  | .object _ _ :: _ => .error .endInObject

/-- The document, when the text ends here. -/
def State.finish (state : State) : Except Cause Json :=
  match state.phase with
  | .value | .nextItem | .nextKey _ | .name _ _ => .error .endInValue
  | .firstItem => .error .endInList
  | .firstKey | .colon _ _ => .error .endInObject
  | .text _ _ _ => .error .endInString
  | .numeral digits => digits.finish >>= finishAfter state.stack
  | .after value => finishAfter state.stack value

/-- Reads on from a state after `offset` bytes. A fault comes with the number of bytes up to
its place. -/
def readFrom (state : State) (offset : Nat) : List UInt8 → Except (Cause × Nat) Json
  | [] => state.finish.mapError fun cause => (cause, offset)
  | b :: bytes =>
    match state.step b with
    | .ok next => readFrom next (offset + 1) bytes
    | .error refusal => .error (refusal.cause, offset + 1 - refusal.back)

/-- Reads a whole text as one document. -/
def read (bytes : List UInt8) : Except Fault Json :=
  (readFrom .initial 0 bytes).mapError fun (cause, offset) =>
    ⟨cause, Position.after (bytes.take offset)⟩

end Readiness.Json
