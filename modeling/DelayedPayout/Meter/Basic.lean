import DelayedPayout.Payout.Basic

/-!
Counters of payout computations: how often the fallback address was paid, what was left to the miner,
and how often a peer's view failed verification.
-/

namespace DelayedPayout

/-- The counters since the last reset. -/
structure Meter where
  computations : Nat := 0
  fallbackOnly : Nat := 0
  remainderToFallback : Nat := 0
  /-- Satoshis left to the miner on top of the reserved fee. -/
  remainderBurned : Int := 0
  skipped : Int := 0
  dust : Int := 0
  verificationFailures : Nat := 0
  lastReceiverCount : Nat := 0
  chainHeight : Int := 0
  deriving DecidableEq, Repr

namespace Meter

def fresh : Meter := {}

/-- Counts a computation with its outcome. A remainder is burned unless the fallback address got it. -/
def count (m : Meter) (p : Payout) : Meter :=
  { m with
    computations := m.computations + 1
    fallbackOnly := m.fallbackOnly + p.fallbackOnly.toNat
    remainderToFallback := m.remainderToFallback + p.remainderToFallback.toNat
    remainderBurned := m.remainderBurned + (if p.remainderToFallback then 0 else p.remainder)
    skipped := m.skipped + p.skipped
    dust := m.dust + p.dust
    lastReceiverCount := p.receivers.length }

def countFailure (m : Meter) : Meter :=
  { m with verificationFailures := m.verificationFailures + 1 }

def noteHeight (m : Meter) (height : Int) : Meter := { m with chainHeight := height }

end Meter

end DelayedPayout
