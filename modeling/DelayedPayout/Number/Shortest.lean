import DelayedPayout.Number.Binary64

/-!
The shortest decimal of a binary number: the fewest digits that read back as the number, and of those the
ones nearest to it.
-/

namespace DelayedPayout.Number

namespace Finite64

def readsBack (x : Finite64) (d : Scaled) : Bool :=
  decide (Binary64.rounded x.negative (d.value 10) = .finite x)

/-- The decimal with its last digit at `10 ^ exponent` that reads back. One of the two neighbours of the
number does if any does; the nearer one goes first, and of two equally near ones the even one. -/
def decimalAt? (x : Finite64) (exponent : Int) : Option Scaled :=
  let position := x.magnitude / power 10 exponent
  let near := nearest position
  let far := 2 * position.floor + 1 - near
  ([⟨near.toNat, exponent⟩, ⟨far.toNat, exponent⟩] : List Scaled).find? x.readsBack

def exactDecimal (x : Finite64) : Scaled :=
  if 0 ≤ x.size.exponent then ⟨x.size.coefficient * Nat.pow 2 x.size.exponent.toNat, 0⟩
  else ⟨x.size.coefficient * Nat.pow 5 (-x.size.exponent).toNat, x.size.exponent⟩

/-- The shortest decimal of a number other than zero: one digit is tried first, and seventeen suffice. -/
def shortest (x : Finite64) : Scaled :=
  let leading := leadingPower 10 x.magnitude
  ((List.range 17).findSome? fun n : Nat => x.decimalAt? (leading - 1 - (n : Int))).getD x.exactDecimal

end Finite64

end DelayedPayout.Number
