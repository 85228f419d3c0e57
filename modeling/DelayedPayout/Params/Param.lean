/-!
The protocol parameters by name. Both parties of a trade must use the same values, or their
transactions differ.
-/

namespace DelayedPayout

inductive Param where
  /-- Width in blocks of the window to which selection heights are quantized. -/
  | snapshotGrid
  /-- Outputs below this amount are dropped. -/
  | minOutputAmount
  /-- A remainder above this goes to the fallback address, a smaller one to the miner. -/
  | minRemainderToFallback
  /-- Least fee rate in satoshis per virtual byte. -/
  | minTxFeeRate
  /-- Size of the largest deposit transaction, by which the trade fee is divided. -/
  | referenceTxSize
  /-- Size of the payout transaction without outputs. -/
  | baseTxSize
  /-- Size of one output. -/
  | outputSize
  /-- How many grid steps a peer's selection height may be away from ours. -/
  | selectionHeightToleranceGrids
  deriving DecidableEq, Repr

namespace Param

/-- The parameters in the order in which they are checked. -/
def all : List Param :=
  [snapshotGrid, minOutputAmount, minRemainderToFallback, minTxFeeRate, referenceTxSize, baseTxSize,
   outputSize, selectionHeightToleranceGrids]

/-- The name in records and messages. -/
def name : Param → String
  | snapshotGrid => "snapshot_grid"
  | minOutputAmount => "min_output_amount"
  | minRemainderToFallback => "min_remainder_to_fallback"
  | minTxFeeRate => "min_tx_fee_rate"
  | referenceTxSize => "reference_tx_size"
  | baseTxSize => "base_tx_size"
  | outputSize => "output_size"
  | selectionHeightToleranceGrids => "selection_height_tolerance_grids"

/-- The value on the main network. -/
def standard : Param → Nat
  | snapshotGrid => 10
  | minOutputAmount => 1000
  | minRemainderToFallback => 50000
  | minTxFeeRate => 10
  | referenceTxSize => 278
  | baseTxSize => 51
  | outputSize => 32
  | selectionHeightToleranceGrids => 1

def variableStem : String := "BURNPAYOUT_"

def environmentVariable (p : Param) : String := variableStem ++ p.name.toUpper

end Param

end DelayedPayout
