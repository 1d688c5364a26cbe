import Readiness.Text.Hex

namespace Readiness.Url

/-! # Addresses in place of a name

A host may be a number. Four octets are written with points and may be read from fewer
parts in three bases; eight pieces are written with colons, the longest run of zeros left
out.
-/

/-- The number that digits stand for in a base of at most sixteen. -/
def numberIn? (base : Nat) (digits : List Char) : Option Nat :=
  digits.foldlM (fun n c => do
    let d ← Text.hexDigit? c
    if d < base then some (base * n + d) else none) 0

/-! ## Four octets -/

/-- An address of four octets. -/
structure Address4 where
  first : UInt8
  second : UInt8
  third : UInt8
  fourth : UInt8
deriving DecidableEq, Repr

namespace Address4

/-- The address with this number. -/
def ofNat (n : Nat) : Address4 :=
  ⟨UInt8.ofNat (n / 16777216), UInt8.ofNat (n / 65536), UInt8.ofNat (n / 256), UInt8.ofNat n⟩

/-- The octets in decimal with points between them. -/
def text (address : Address4) : List Char :=
  ['.'].intercalate <|
    [address.first, address.second, address.third, address.fourth].map fun octet =>
      Nat.toDigits 10 octet.toNat

/-- The parts of a name between points. A point at the end adds no part. -/
def parts (name : List Char) : List (List Char) :=
  let all := name.splitOn '.'
  if all.getLast? = some [] then all.dropLast else all

/-- The number of a part: hexadecimal behind `0x`, octal behind `0`, decimal otherwise. -/
def partNumber? : List Char → Option Nat
  | [] => none
  | '0' :: mark :: digits =>
    if mark = 'x' ∨ mark = 'X' then numberIn? 16 digits else numberIn? 8 (mark :: digits)
  | digits => numberIn? 10 digits

/-- Whether a name can only be an address: its last part is a number, or all digits. -/
def isMeant (name : List Char) : Bool :=
  match (parts name).getLast? with
  | none => false
  | some last => (!last.isEmpty && last.all Char.isDigit) || (partNumber? last).isSome

/-- How many numbers so many octets can hold. -/
def room (octets : Nat) : Nat := Nat.pow 256 octets

/-- The number of an address. Every part but the last is one octet; the last one fills
the octets that are left. -/
def number? : List Nat → Option Nat
  | [] => none
  | first :: others =>
    let front := (first :: others).dropLast
    let last := (first :: others).getLast (List.cons_ne_nil first others)
    if front.length ≤ 3 ∧ front.all (· ≤ 255) ∧ last < room (4 - front.length) then
      some (front.foldl (fun n octet => 256 * n + octet) 0 * room (4 - front.length) + last)
    else
      none

/-- Reads an address of one to four parts. -/
def read? (name : List Char) : Option Address4 := do
  return ofNat (← number? (← (parts name).mapM partNumber?))

end Address4

/-! ## Eight pieces -/

/-- An address of eight pieces. -/
structure Address6 where
  pieces : List UInt16
  eight : pieces.length = 8
deriving DecidableEq, Repr

namespace Address6

/-- How many zeros a list of pieces begins with. -/
def zeroRun (pieces : List UInt16) : Nat := (pieces.takeWhile (· == 0)).length

/-- The length of the longest run of zeros. -/
def longestRun : List UInt16 → Nat
  | [] => 0
  | piece :: pieces => max (zeroRun (piece :: pieces)) (longestRun pieces)

/-- Pieces in hexadecimal with colons between them. -/
def joined (pieces : List UInt16) : List Char :=
  [':'].intercalate (pieces.map fun piece => Nat.toDigits 16 piece.toNat)

/-- The pieces in front of the first run of this many zeros. -/
def beforeRun (run : Nat) : List UInt16 → List UInt16
  | [] => []
  | piece :: pieces =>
    if zeroRun (piece :: pieces) = run then [] else piece :: beforeRun run pieces

/-- The text of an address, where two colons stand for the first of the longest runs of at
least two zeros. -/
def text (address : Address6) : List Char :=
  let run := longestRun address.pieces
  if run < 2 then joined address.pieces
  else
    let front := beforeRun run address.pieces
    joined front ++ [':', ':'] ++ joined (address.pieces.drop (front.length + run))

/-- A piece: one to four hexadecimal digits. -/
def piece? (digits : List Char) : Option UInt16 :=
  if 1 ≤ digits.length ∧ digits.length ≤ 4 then (numberIn? 16 digits).map UInt16.ofNat else none

/-- An octet in decimal, without a zero in front. -/
def octet? (digits : List Char) : Option Nat := do
  if digits.isEmpty || (digits.head? == some '0' && digits.length != 1) then none
  let n ← numberIn? 10 digits
  if n ≤ 255 then some n else none

/-- Two pieces written as four octets. -/
def quad? (text : List Char) : Option (List UInt16) := do
  match ← (text.splitOn '.').mapM octet? with
  | [a, b, c, d] => some [UInt16.ofNat (256 * a + b), UInt16.ofNat (256 * c + d)]
  | _ => none

/-- Reads pieces; the last two may be octets. -/
def pieces? : List (List Char) → Option (List UInt16)
  | [] => some []
  | [last] => if last.contains '.' then quad? last else (piece? last).map fun piece => [piece]
  | digits :: rest => do return (← piece? digits) :: (← pieces? rest)

/-- Reads pieces with colons between them; nothing at all is no pieces. -/
def side? (text : List Char) : Option (List UInt16) :=
  if text.isEmpty then some [] else pieces? (text.splitOn ':')

/-- What stands in front of the first two colons in a row, and behind them. -/
def splitRun : List Char → Option (List Char × List Char)
  | ':' :: ':' :: text => some ([], text)
  | c :: text => (splitRun text).map fun (front, back) => (c :: front, back)
  | [] => none

/-- The address with these pieces, if they are eight. -/
def ofPieces? (pieces : List UInt16) : Option Address6 :=
  if h : pieces.length = 8 then some ⟨pieces, h⟩ else none

/-- Reads an address. Two colons stand for one zero at least, and octets only come last. -/
def read? (text : List Char) : Option Address6 :=
  match splitRun text with
  | none => pieces? (text.splitOn ':') >>= ofPieces?
  | some (front, back) => do
    if front.contains '.' then none
    let front ← side? front
    let back ← side? back
    let known := front.length + back.length
    if known ≤ 7 then ofPieces? (front ++ List.replicate (8 - known) 0 ++ back) else none

end Address6
end Readiness.Url
