namespace Readiness.Double

/-! # Natural numbers as doubles

A double keeps 53 significant bits. Everything here is exact arithmetic on
natural numbers: a double is the natural number it stands for.
-/

/-- The multiple of `gap` nearest to `n`; halfway between two, the even multiple. -/
def nearestMultiple (gap n : Nat) : Nat :=
  if gap < 2 * (n % gap) ∨ (gap = 2 * (n % gap) ∧ n / gap % 2 = 1) then
    (n / gap + 1) * gap
  else
    n / gap * gap

/-- The distance between neighbouring doubles from the highest bit of `n` on. -/
def spacing (n : Nat) : Nat := 1 <<< (n.log2 + 1 - 53)

/-- The double nearest to `n`, without an upper bound on the exponent. -/
def round (n : Nat) : Nat := nearestMultiple (spacing n) n

/-- The least number that rounds past every finite double: the largest one and
half the distance to the next power of two. -/
def overflowBound : Nat := 1 <<< 1024 - 1 <<< 970

end Readiness.Double
