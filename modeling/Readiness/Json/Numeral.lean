import Readiness.Number.Decimal
import Readiness.Number.Double

namespace Readiness

/-! # JSON numerals

A numeral keeps what its literal says: the sign, the digits before and after
the point, and the exponent. Two questions are asked of it: whether it is one of the
natural numbers of 64 bits, and whether it is too large for a double.
-/

/-- A number literal, read but not yet converted. `fraction` is empty when there is
no point, `exponent` is absent when there is no exponent part. -/
structure Numeral where
  negative : Bool
  whole : List (Fin 10)
  fraction : List (Fin 10)
  exponent : Option Int
deriving DecidableEq, Repr

namespace Numeral

/-- The value of a run of digits that continues `start`. -/
def valueFrom (start : Nat) (digits : List (Fin 10)) : Nat :=
  digits.foldl (fun n d => 10 * n + d.val) start

/-- The value of a run of digits. -/
def value (digits : List (Fin 10)) : Nat := valueFrom 0 digits

/-- Natural numbers above this one are read as doubles. -/
def naturalLimit : Nat := 18446744073709551615

/-- The number, when the literal is digits alone and fits 64 bits. -/
def natural? (n : Numeral) : Option Nat :=
  if !n.negative && n.fraction.isEmpty && n.exponent.isNone && value n.whole ≤ naturalLimit then
    some (value n.whole)
  else
    none

/-! ## Numerals too large for a double

A literal is turned into a double through a significand of 64 bits and a power
of ten, each rounded on its own. The significand takes digits while it has room; a digit
of the whole part that finds none still counts as a factor of ten.
-/

/-- Takes digits into the significand `start` until one would overrun 64 bits, and
gives the significand with the digits that are left. -/
def absorb (start : Nat) : List (Fin 10) → Nat × List (Fin 10)
  | [] => (start, [])
  | d :: ds =>
    if 10 * start + d.val ≤ naturalLimit then absorb (10 * start + d.val) ds
    else (start, d :: ds)

/-- The significand of the literal. -/
def significand (n : Numeral) : Nat := (absorb (absorb 0 n.whole).1 n.fraction).1

/-- The power of ten that goes with the significand. -/
def scale (n : Numeral) : Int :=
  let (kept, dropped) := absorb 0 n.whole
  let unread := (absorb kept n.fraction).2
  dropped.length - (n.fraction.length - unread.length) + n.exponent.getD 0

/-- The digit that adds nothing. -/
def zeroDigit : Fin 10 := 0

/-- Whether every digit is zero, whatever the exponent. -/
def isZero (n : Numeral) : Bool := n.whole.all (· == zeroDigit) && n.fraction.all (· == zeroDigit)

/-- An exponent above this one is never added to the scale: it decides at once. -/
def exponentLimit : Int := 2147483647

/-- Whether the exponent alone puts the number out of range. -/
def exponentOverflows (n : Numeral) : Bool :=
  exponentLimit < n.exponent.getD 0 && !n.isZero

/-- Whether the conversion to a double runs past the largest finite one. Powers of ten
above `10 ^ 308` always do, and a negative scale never does. -/
def overflows (n : Numeral) : Bool :=
  n.exponentOverflows ||
    (n.significand != 0 && 0 ≤ n.scale &&
      (308 < n.scale ||
        Double.overflowBound ≤
          Double.round n.significand * Double.round (Decimal.power n.scale.toNat)))

end Numeral
end Readiness
