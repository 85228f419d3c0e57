/-!
Rounding of exact rationals to so many digits in some base: the nearest value, a tie to the even digit.
One function serves every format of this library, since a format is only its base, its digit count and
its least exponent.
-/

namespace DelayedPayout.Number

def power (base : Nat) : Int → Rat
  | .ofNat n => ((Nat.pow base n : Nat) : Rat)
  | .negSucc n => mkRat 1 (Nat.pow base (n + 1))

/-- The integer nearest to `x`; a tie goes to the even neighbour. -/
def nearest (x : Rat) : Int :=
  let below := x.floor
  let rest := x - (below : Rat)
  if rest < 1 / 2 then below
  else if 1 / 2 < rest then below + 1
  else below + below % 2

/-- The number of digits of `n`, none for zero. The first argument bounds the count. -/
def digitCountWithin (base : Nat) : Nat → Nat → Nat
  | 0, _ => 0
  | bound + 1, n => if n = 0 then 0 else digitCountWithin base bound (n / base) + 1

/-- The number of digits of `n` in a base of at least two: no base needs more than base two. -/
def digitCount (base n : Nat) : Nat := digitCountWithin base (n.log2 + 1) n

/-- The least `k` with `x < base ^ k`, for a positive `x`: the numbers of digits of its two parts
fix it up to one. -/
def leadingPower (base : Nat) (x : Rat) : Int :=
  let guess : Int := (digitCount base x.num.natAbs : Int) - (digitCount base x.den : Int)
  if x < power base guess then guess else guess + 1

/-- A value `coefficient * base ^ exponent`, the base being known from its format. -/
structure Scaled where
  coefficient : Nat
  exponent : Int
  deriving DecidableEq, Repr

def Scaled.value (base : Nat) (s : Scaled) : Rat := (s.coefficient : Rat) * power base s.exponent

/-- A format with a base, so many digits, and a least exponent of the last digit. -/
structure Precision where
  base : Nat
  digits : Nat
  leastExponent : Int
  deriving DecidableEq, Repr

namespace Precision

/-- The exponent of the last digit of the values around a positive `x`. -/
def lastExponent (p : Precision) (x : Rat) : Int :=
  max p.leastExponent (leadingPower p.base x - (p.digits : Int))

/-- A coefficient that has carried over into one digit more gives it up to the exponent. -/
def settle (p : Precision) (s : Scaled) : Scaled :=
  if s.coefficient = Nat.pow p.base p.digits then ⟨Nat.pow p.base (p.digits - 1), s.exponent + 1⟩ else s

/-- The value of the format nearest to a non-negative `x`, a tie going to the even last digit. -/
def round (p : Precision) (x : Rat) : Scaled :=
  if x = 0 then ⟨0, p.leastExponent⟩
  else
    let exponent := p.lastExponent x
    p.settle ⟨(nearest (x / power p.base exponent)).toNat, exponent⟩

end Precision

end DelayedPayout.Number
