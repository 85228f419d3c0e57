import DelayedPayout.Receiver

/-!
The outcome of splitting an amount: the outputs, and what became of the amounts that are in none.
-/

namespace DelayedPayout

/-- The outputs of a payout with its bookkeeping. -/
structure Payout where
  receivers : List Receiver := []
  /-- The amount that was to be split. -/
  spendable : Int := 0
  /-- How many candidates had no address. -/
  skipped : Int := 0
  /-- How many outputs were dropped as too small. -/
  dust : Int := 0
  /-- What the outputs of the candidates leave of the amount. -/
  remainder : Int := 0
  /-- Whether the remainder went to the fallback address. -/
  remainderToFallback : Bool := false
  /-- Whether there were no candidates, so that the fallback address got everything. -/
  fallbackOnly : Bool := false
  /-- By how much the rounded outputs exceeded the amount before they were trimmed. -/
  roundingExcess : Int := 0
  deriving DecidableEq, Repr

namespace Payout

def total (p : Payout) : Int := Receiver.total p.receivers

/-- The part of the amount that is left to the miner. -/
def burned (p : Payout) : Int := p.spendable - p.total

end Payout

end DelayedPayout
