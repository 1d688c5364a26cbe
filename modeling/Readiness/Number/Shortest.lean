import Readiness.Number.Decimal
import Readiness.Number.Double

namespace Readiness.Double

/-! # Shortest text of a double

A whole double is written with the fewest digits that read back as it, the nearest ones
where there is a choice. Below `10 ^ 16` that is the number itself with a zero after the
point; from there on it is scientific.
-/

/-- A coefficient with a power of ten. -/
structure Scientific where
  coefficient : Nat
  exponent : Nat

/-- Whether a multiple of `10 ^ exponent` reads back as the double. -/
def readsBack (double coefficient exponent : Nat) : Bool :=
  round (coefficient * Decimal.power exponent) == double

/-- The numeral of a double with the largest exponent up to the given one. On each grid the
two neighbours of the double are the only ones that can read back. -/
def shortestFrom (double : Nat) : Nat → Scientific
  | 0 => ⟨double, 0⟩
  | exponent + 1 =>
    let below := double / Decimal.power (exponent + 1)
    let belowNearer := 2 * (double % Decimal.power (exponent + 1)) ≤ Decimal.power (exponent + 1)
    match readsBack double below (exponent + 1), readsBack double (below + 1) (exponent + 1) with
    | true, true => ⟨if belowNearer then below else below + 1, exponent + 1⟩
    | true, false => ⟨below, exponent + 1⟩
    | false, true => ⟨below + 1, exponent + 1⟩
    | false, false => shortestFrom double exponent

/-- The shortest numeral of a double. -/
def shortest (double : Nat) : Scientific :=
  shortestFrom double (Nat.toDigits 10 double).length

/-- The first digit, a point before the others if there are any, and the exponent. -/
def Scientific.text (numeral : Scientific) : String :=
  let digits := Nat.toDigits 10 numeral.coefficient
  let exponent := numeral.exponent + digits.length - 1
  match digits with
  | first :: second :: others =>
    String.ofList (first :: '.' :: second :: others) ++ "e" ++ toString exponent
  | _ => String.ofList digits ++ "e" ++ toString exponent

/-- The text of the double nearest to a natural number. -/
def text (n : Nat) : String :=
  if round n < Decimal.power 16 then toString (round n) ++ ".0" else (shortest (round n)).text

end Readiness.Double
