import DelayedPayout.Number.Binary64

/-!
Rounding to whole numbers, a half going up: the floor of the value plus one half, where the sum is taken
to 28 decimal digits. Below `10 ^ 28` the sum keeps every digit that decides the floor; from there on the
answer is the value to 28 digits.
-/

namespace DelayedPayout.Number

/-- The working precision of the sum. Its least exponent is out of reach of binary numbers. -/
def decimal28 : Precision where
  base := 10
  digits := 28
  leastExponent := -1000026

/-- The value of a format nearest to a rational of either sign. -/
def Precision.nearestValue (p : Precision) (x : Rat) : Rat :=
  if x = 0 then 0
  else if x < 0 then -(p.round (-x)).value p.base
  else (p.round x).value p.base

/-- The whole number nearest to `x`, a half going up, through a sum of 28 digits. -/
def Finite64.halfUp (x : Finite64) : Int := (decimal28.nearestValue (x.value + 1 / 2)).floor

end DelayedPayout.Number
