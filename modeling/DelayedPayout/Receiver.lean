/-!
Receivers of the delayed payout transaction, and the order in which its outputs stand.
-/

namespace DelayedPayout

/-- One output of the transaction: an amount in satoshis and the address that gets it. -/
structure Receiver where
  amount : Int
  address : String
  deriving DecidableEq, Repr

namespace Receiver

/-- Outputs stand in ascending order of amount, and of address by code points among equal amounts. -/
def le (a b : Receiver) : Bool :=
  decide (a.amount < b.amount) || (a.amount == b.amount && !decide (b.address < a.address))

/-- Puts an output in front of the first one that does not come before it. -/
def insert (r : Receiver) : List Receiver → List Receiver
  | [] => [r]
  | s :: rest => if le r s then r :: s :: rest else s :: insert r rest

def sort (receivers : List Receiver) : List Receiver := receivers.foldr insert []

def total (receivers : List Receiver) : Int := receivers.foldr (fun r rest => r.amount + rest) 0

end Receiver

end DelayedPayout
