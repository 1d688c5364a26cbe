namespace Readiness.Decimal

/-! # Unsigned decimal numbers

A number is digits, which one plus sign may precede. It is read from the left and the
first problem counts: at each place the digit is looked at before the size.
-/

/-- Why a text is not a number within a limit. -/
inductive Fault where
  | empty
  | invalidDigit
  | tooLarge
deriving DecidableEq, Repr

/-- The words for a fault. -/
def Fault.message : Fault → String
  | .empty => "cannot parse integer from empty string"
  | .invalidDigit => "invalid digit found in string"
  | .tooLarge => "number too large to fit in target type"

/-- Reads digits that continue the number `start`. -/
def readDigits (limit start : Nat) : List Char → Except Fault Nat
  | [] => .ok start
  | c :: text =>
    if c.isDigit then
      if 10 * start + (c.toNat - '0'.toNat) ≤ limit then
        readDigits limit (10 * start + (c.toNat - '0'.toNat)) text
      else
        .error .tooLarge
    else
      .error .invalidDigit

/-- Reads a number up to `limit`. A sign alone is not a number. -/
def read (limit : Nat) : List Char → Except Fault Nat
  | [] => .error .empty
  | ['+'] => .error .invalidDigit
  | '+' :: digits => readDigits limit 0 digits
  | digits => readDigits limit 0 digits

/-! ## Places after the point -/

/-- What a digit counts that stands in front of so many others. -/
def power (places : Nat) : Nat := Nat.pow 10 places

/-- The last `places` digits of a number, zeros in front included. -/
def lastDigits : Nat → Nat → List Char
  | 0, _ => []
  | places + 1, n => lastDigits places (n / 10) ++ [Nat.digitChar (n % 10)]

/-- Digits after a point without the zeros that end them. -/
def trimZeros (digits : List Char) : List Char := (digits.reverse.dropWhile (· == '0')).reverse

end Readiness.Decimal
