import DelayedPayout.Fault

/-!
Sets of protocol parameters. A set is built from one value a parameter; the first parameter whose value
is no natural number refuses it, and then a zero where a divisor is needed.
-/

namespace DelayedPayout

/-- A parameter set in use: no value is negative, and the two divisors are positive. -/
structure Params where
  snapshotGrid : Nat
  minOutputAmount : Nat
  minRemainderToFallback : Nat
  minTxFeeRate : Nat
  referenceTxSize : Nat
  baseTxSize : Nat
  outputSize : Nat
  selectionHeightToleranceGrids : Nat
  snapshotGrid_pos : 0 < snapshotGrid
  referenceTxSize_pos : 0 < referenceTxSize
  deriving DecidableEq

namespace Param

/-- One value a parameter, found in the order of the parameters: the first fault is the answer. -/
def inOrder {α : Type} (find : Param → Except Fault α) : Except Fault (Param → α) := do
  let grid ← find snapshotGrid
  let output ← find minOutputAmount
  let remainder ← find minRemainderToFallback
  let rate ← find minTxFeeRate
  let reference ← find referenceTxSize
  let base ← find baseTxSize
  let size ← find outputSize
  let tolerance ← find selectionHeightToleranceGrids
  return fun
    | snapshotGrid => grid
    | minOutputAmount => output
    | minRemainderToFallback => remainder
    | minTxFeeRate => rate
    | referenceTxSize => reference
    | baseTxSize => base
    | outputSize => size
    | selectionHeightToleranceGrids => tolerance

/-- The natural number given for a parameter. A flag is no number. -/
def natural (p : Param) : Scalar → Except Fault Nat
  | .int n => if n < 0 then .error (.negativeParam p n) else .ok n.toNat
  | value => .error (.paramNotAnInteger p value)

end Param

namespace Params

/-- The parameter set with these values, unless a divisor is zero. -/
def ofNaturals (value : Param → Nat) : Except Fault Params :=
  if grid : 0 < value .snapshotGrid then
    if reference : 0 < value .referenceTxSize then
      .ok
        { snapshotGrid := value .snapshotGrid
          minOutputAmount := value .minOutputAmount
          minRemainderToFallback := value .minRemainderToFallback
          minTxFeeRate := value .minTxFeeRate
          referenceTxSize := value .referenceTxSize
          baseTxSize := value .baseTxSize
          outputSize := value .outputSize
          selectionHeightToleranceGrids := value .selectionHeightToleranceGrids
          snapshotGrid_pos := grid
          referenceTxSize_pos := reference }
    else .error (.zeroParam .referenceTxSize)
  else .error (.zeroParam .snapshotGrid)

def ofScalars (value : Param → Scalar) : Except Fault Params := do
  ofNaturals (← Param.inOrder fun p => p.natural (value p))

def get (params : Params) : Param → Nat
  | .snapshotGrid => params.snapshotGrid
  | .minOutputAmount => params.minOutputAmount
  | .minRemainderToFallback => params.minRemainderToFallback
  | .minTxFeeRate => params.minTxFeeRate
  | .referenceTxSize => params.referenceTxSize
  | .baseTxSize => params.baseTxSize
  | .outputSize => params.outputSize
  | .selectionHeightToleranceGrids => params.selectionHeightToleranceGrids

/-- The parameter set of the main network. -/
def standard : Params where
  snapshotGrid := Param.standard .snapshotGrid
  minOutputAmount := Param.standard .minOutputAmount
  minRemainderToFallback := Param.standard .minRemainderToFallback
  minTxFeeRate := Param.standard .minTxFeeRate
  referenceTxSize := Param.standard .referenceTxSize
  baseTxSize := Param.standard .baseTxSize
  outputSize := Param.standard .outputSize
  selectionHeightToleranceGrids := Param.standard .selectionHeightToleranceGrids
  snapshotGrid_pos := by decide
  referenceTxSize_pos := by decide

end Params

end DelayedPayout
