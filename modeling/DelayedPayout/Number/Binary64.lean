import DelayedPayout.Number.Nearest

/-!
The binary floating format of 64 bits, over exact rationals: a number is a sign, a significand and an
exponent in the one form that the format allows, and an operation is the exact result rounded once.
-/

namespace DelayedPayout.Number

/-- Significands have 53 bits, and the last bit of the least numbers stands for `2 ^ -1074`. -/
def binary64 : Precision where
  base := 2
  digits := 53
  leastExponent := -1074

/-- The leading bit of a significand of full length, `2 ^ 52`. -/
def leadingBit : Nat := 0x10000000000000

/-- The pairs that the format admits: 53 bits at most, all of them used unless the exponent is the
least, and no exponent beyond that of the largest numbers. -/
def IsCanonical (s : Scaled) : Prop :=
  s.coefficient < 2 * leadingBit ∧ -1074 ≤ s.exponent ∧ s.exponent ≤ 971 ∧
    (leadingBit ≤ s.coefficient ∨ s.exponent = -1074)

instance (s : Scaled) : Decidable (IsCanonical s) := by unfold IsCanonical; infer_instance

/-- A finite number; zero has two signs. -/
structure Finite64 where
  negative : Bool
  size : Scaled
  canonical : IsCanonical size
  deriving DecidableEq

/-- A number of the format, an infinity, or not a number. -/
inductive Binary64 where
  | nan
  | infinite (negative : Bool)
  | finite (x : Finite64)
  deriving DecidableEq

namespace Finite64

def magnitude (x : Finite64) : Rat := x.size.value 2

/-- The exact value; both zeros have the value zero. -/
def value (x : Finite64) : Rat := if x.negative then -x.magnitude else x.magnitude

end Finite64

namespace Binary64

/-- The number with this sign and size, or the infinity of the sign if the size is out of range. -/
def ofScaled (negative : Bool) (size : Scaled) : Binary64 :=
  if h : IsCanonical size then .finite ⟨negative, size, h⟩ else .infinite negative

/-- The number nearest to the non-negative `magnitude`, under the given sign. -/
def rounded (negative : Bool) (magnitude : Rat) : Binary64 :=
  ofScaled negative (binary64.round magnitude)

def zero : Binary64 := ofScaled false ⟨0, -1074⟩

def one : Binary64 := ofScaled false ⟨leadingBit, -52⟩

/-- The finite number nearest to `x`, unless `x` is too large for one. -/
def ofRat? (x : Rat) : Option Finite64 :=
  match rounded (decide (x < 0)) x.abs with
  | .finite y => some y
  | _ => none

/-- The finite number nearest to an integer, unless the integer is too large for one. -/
def ofInt? (n : Int) : Option Finite64 := ofRat? (n : Rat)

/-- The highest bit of a word of 64 bits, `2 ^ 63`. -/
def signUnit : Nat := 0x8000000000000000

/-- The number that a word of 64 bits stands for: a sign bit, eleven bits of exponent, and 52 bits
of significand below a leading one that only the least numbers lack. -/
def ofBits (bits : Nat) : Binary64 :=
  let negative := bits / signUnit % 2 == 1
  let field : Nat := bits / leadingBit % 2048
  let fraction : Nat := bits % leadingBit
  if field = 2047 then (if fraction = 0 then .infinite negative else .nan)
  else if field = 0 then ofScaled negative ⟨fraction, -1074⟩
  else ofScaled negative ⟨leadingBit + fraction, (field : Int) - 1075⟩

/-- The word of 64 bits that stands for a number. All that is not a number has one word. -/
def toBits : Binary64 → Nat
  | .nan => 0x7ff8000000000000
  | .infinite negative => signBit negative + 2047 * leadingBit
  | .finite x =>
    if x.size.coefficient < leadingBit then signBit x.negative + x.size.coefficient
    else signBit x.negative + (x.size.exponent + 1075).toNat * leadingBit + (x.size.coefficient - leadingBit)
where
  /-- The highest bit is the sign. -/
  signBit (negative : Bool) : Nat := if negative then signUnit else 0

end Binary64

namespace Finite64

/-- The product: exact, then rounded once. -/
def mul (x y : Finite64) : Binary64 :=
  Binary64.rounded (x.negative != y.negative) (x.magnitude * y.magnitude)

/-- Between zero and one, both included; a zero of either sign counts. -/
def inUnit (x : Finite64) : Bool := decide (0 ≤ x.value) && decide (x.value ≤ 1)

end Finite64

end DelayedPayout.Number
