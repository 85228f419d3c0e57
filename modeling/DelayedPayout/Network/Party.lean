import DelayedPayout.ChainTip
import DelayedPayout.FeeRule
import DelayedPayout.Grid
import DelayedPayout.Ledger
import DelayedPayout.Payout.Split
import DelayedPayout.Register

/-!
What one party computes: the selection height, the outputs of a trade, and whether a peer's view of either
agrees with its own. Nothing here depends on when it is computed.
-/

namespace DelayedPayout

/-- What both parties of a trade know. -/
structure Trade where
  selectionHeight : Int
  /-- The input amount of the payout transaction. -/
  input : Int
  /-- The fee of the trade, from which the fee rate follows. -/
  fee : Int
  deriving DecidableEq, Repr

/-- The height at which candidates are selected while the chain stands at `tip`. -/
def selectionHeight (params : Params) (ledger : Ledger) (tip : ChainTip) : Except Fault Int :=
  gridHeight ledger.genesis tip.height params.snapshotGrid

/-- The tolerance for a peer's selection height, in blocks. -/
def Params.tolerance (params : Params) : Nat :=
  params.selectionHeightToleranceGrids * params.snapshotGrid

/-- A peer's selection height is accepted if it is no farther from ours than the tolerance. -/
def Params.accepts (params : Params) (ours peer : Int) : Bool :=
  decide ((ours - peer).natAbs ≤ params.tolerance)

/-- The outputs of a trade. The fee of one output a candidate is reserved first; without candidates the
whole input goes to the fallback address. -/
def Trade.payout (trade : Trade) (params : Params) (ledger : Ledger) (register : Register) :
    Except Fault Payout :=
  if trade.input < 0 then .error (.negativeInput trade.input)
  else if trade.fee < 0 then .error (.negativeTradeFee trade.fee)
  else
    let candidates := (register.inForceAt trade.selectionHeight).values
    let fallback := ledger.fallbackAt trade.selectionHeight
    if candidates.isEmpty then do
      let p ← (split [] trade.input 0 params.minRemainderToFallback fallback).outcome
      report [trade.selectionHeight, trade.input]
      return p
    else do
      let rule ← FeeRule.ofTradeFee trade.fee params
      let spendable ← rule.afterFee candidates.length trade.input
      let p ← (split candidates spendable rule.leastOutput params.minRemainderToFallback
        fallback).outcome
      report (if p.remainderToFallback then [p.remainder, trade.selectionHeight] else [])
      return p

/-- An output as a peer sends it: a receiver, a row of amount and address, or a row with more or fewer
cells than these two. -/
inductive Output where
  | receiver (r : Receiver)
  | row (amount : Int) (address : String)
  | ragged (cells : Nat) (notTwo : cells ≠ 2)
  deriving DecidableEq

def Output.toReceiver : Output → Except Fault Receiver
  | .receiver r => .ok r
  | .row amount address => .ok ⟨amount, address⟩
  | .ragged cells _ => .error (if cells < 2 then .tooFewCells cells else .tooManyCells)

/-- Compares a peer's outputs with ours: amounts, addresses and order must all agree. A mismatch is
reported with the height and all amounts. -/
def checkOutputs (height : Int) (expected : List Receiver) (outputs : List Output) :
    Except Fault (List Receiver) := do
  let actual ← outputs.mapM Output.toReceiver
  if expected = actual then return expected
  else do
    report (height :: (expected ++ actual).map Receiver.amount)
    .error (.receiverMismatch expected actual)

end DelayedPayout
