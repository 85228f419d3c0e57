import DelayedPayout.Receiver

/-!
Taking a rounding excess off the outputs. The largest output gives it up; one that would then be too
small is dropped whole, and the next largest gives up what is still missing.
-/

namespace DelayedPayout

/-- Outputs from the largest down after trimming, how many of them were dropped, and by how much they
still exceed the amount: not at all, or by a negative number if a dropped output left something over. -/
structure Trimmed where
  descending : List Receiver
  dropped : Nat
  excess : Int
  deriving DecidableEq, Repr

def Receiver.insertDescending (r : Receiver) : List Receiver → List Receiver
  | [] => [r]
  | s :: rest => if Receiver.le s r then r :: s :: rest else s :: insertDescending r rest

/-- Takes an excess off outputs that stand from the largest down. -/
def trim (minOutput excess : Int) : List Receiver → Trimmed
  | [] => ⟨[], 0, excess⟩
  | largest :: smaller =>
    if excess ≤ 0 then ⟨largest :: smaller, 0, excess⟩
    else if minOutput ≤ largest.amount - excess then
      ⟨Receiver.insertDescending { largest with amount := largest.amount - excess } smaller, 0, 0⟩
    else
      let rest := trim minOutput (excess - largest.amount) smaller
      { rest with dropped := rest.dropped + 1 }

end DelayedPayout
