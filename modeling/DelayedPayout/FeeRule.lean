import DelayedPayout.Params.Basic
import DelayedPayout.WholeNumber

/-!
The fee of the payout transaction. Both parties know the fee of the trade, so they derive the fee
rate from it alone: the trade fee over a fixed transaction size, with a floor.
-/

namespace DelayedPayout

open Number

/-- A fee rate in satoshis per virtual byte, under a parameter set. -/
structure FeeRule where
  rate : Nat
  params : Params
  deriving DecidableEq

namespace FeeRule

def ofRate (rate : Int) (params : Params) : Except Fault FeeRule :=
  if rate < 0 then .error (.negativeFeeRate rate) else .ok ⟨rate.toNat, params⟩

/-- The rule for the fee of a trade: the quotient is taken as the nearest binary number and rounded
half up, and the least rate of the parameters is the floor. -/
def ofTradeFee (fee : Int) (params : Params) : Except Fault FeeRule :=
  if fee < 0 then .error (.negativeReferenceFee fee)
  else match Binary64.ofRat? ((fee : Rat) / (params.referenceTxSize : Rat)) with
    | none => .error .quotientTooLarge
    | some quotient => .ok ⟨(max (params.minTxFeeRate : Int) quotient.halfUp).toNat, params⟩

/-- The least output worth its place: the least output amount of the parameters, or twice the fee cost
of an output if that is more. -/
def leastOutput (rule : FeeRule) : Int :=
  max (rule.params.minOutputAmount : Int) (rule.rate * rule.params.outputSize * 2)

def size (rule : FeeRule) (outputs : Int) : Except Fault Int :=
  if outputs < 0 then .error (.negativeOutputCount outputs)
  else .ok (rule.params.baseTxSize + outputs * rule.params.outputSize)

def fee (rule : FeeRule) (outputs : Int) : Except Fault Int := do
  return rule.rate * (← rule.size outputs)

/-- What an input amount leaves for the receivers once the fee is reserved. -/
def afterFee (rule : FeeRule) (outputs input : Int) : Except Fault Int :=
  if input < 0 then .error (.negativeInput input)
  else do
    let fee ← rule.fee outputs
    if input - fee < 0 then .error (.feeNotCovered input fee outputs)
    else do
      let size ← rule.size outputs
      report [rule.rate, size, fee, input - fee]
      return input - fee

end FeeRule

end DelayedPayout
