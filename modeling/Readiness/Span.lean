import Readiness.Number.Decimal

namespace Readiness

/-! # Spans of time

A span is whole seconds and nanoseconds. It is written in the largest unit that it
reaches, with as many decimals as it takes.
-/

/-- A length of time. -/
structure Span where
  seconds : Nat
  nanoseconds : Fin 1000000000
deriving DecidableEq, Repr

namespace Span

/-- A whole number of seconds. -/
def ofSeconds (seconds : Nat) : Span := ⟨seconds, 0⟩

/-- The whole span in nanoseconds. -/
def total (span : Span) : Nat := span.seconds * 1000000000 + span.nanoseconds

/-- A unit of time: ten to the power `exponent` nanoseconds. -/
structure TimeUnit where
  exponent : Nat
  symbol : String

/-- The unit of a span: the largest that it reaches, nanoseconds for an empty one. -/
def timeUnit (span : Span) : TimeUnit :=
  if 1000000000 ≤ span.total then ⟨9, "s"⟩
  else if 1000000 ≤ span.total then ⟨6, "ms"⟩
  else if 1000 ≤ span.total then ⟨3, "µs"⟩
  else ⟨0, "ns"⟩

/-- The decimal numeral of a number of nanoseconds in units of ten to the power `exponent`. -/
def numeral (exponent total : Nat) : String :=
  let places := Decimal.trimZeros (Decimal.lastDigits exponent (total % Decimal.power exponent))
  toString (total / Decimal.power exponent) ++
    if places.isEmpty then "" else "." ++ String.ofList places

/-- The text of a span. -/
def text (span : Span) : String :=
  numeral span.timeUnit.exponent span.total ++ span.timeUnit.symbol

end Span
end Readiness
