import DelayedPayout.Fault
import DelayedPayout.Number.HalfUp

/-!
Whole amounts of binary numbers and of scalars. Both parties must round alike, so the rule is part of
the protocol.
-/

namespace DelayedPayout

open Number

/-- The whole number nearest to a finite number, a half going up. -/
def wholeNumber : Binary64 → Except Fault Int
  | .finite x => .ok x.halfUp
  | x => .error (.notFinite x)

/-- The whole number of a scalar: an integer is its own, and a flag counts as one or zero. Text and null
have none. -/
def Scalar.wholeNumber? : Scalar → Option (Except Fault Int)
  | .int n => some (.ok n)
  | .real x => some (wholeNumber x)
  | .flag true => some (wholeNumber .one)
  | .flag false => some (wholeNumber .zero)
  | _ => none

end DelayedPayout
