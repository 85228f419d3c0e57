import DelayedPayout.Proofs.Payout.Refusal
import DelayedPayout.Proofs.Trade.Outcome

/-!
Why a trade is refused. A payout that cannot be computed is never refused as a failed verification
(`Trade.isMismatch_of_payout_eq_error`), and neither are outputs of which one is no pair, wherever it
stands (`checkOutputs_of_mem_ragged`).
-/

namespace DelayedPayout

open Number

variable {params : Params} {rule : FeeRule} {fault : Fault}

/-- A failed verification: a peer's outputs or selection height are not ours. -/
def Fault.isMismatch : Fault → Bool
  | .receiverMismatch .. | .selectionHeightMismatch .. => true
  | _ => false

def Fault.isMalformedOutput : Fault → Bool
  | .tooFewCells _ | .tooManyCells => true
  | _ => false

theorem Fault.isMismatch_of_isOfArguments (h : fault.isOfArguments = true) :
    fault.isMismatch = false := by
  cases fault <;> first | rfl | cases h

theorem Fault.isMismatch_of_isMalformedOutput (h : fault.isMalformedOutput = true) :
    fault.isMismatch = false := by
  cases fault <;> first | rfl | cases h

/-! ## Payouts -/

theorem isMismatch_of_report_eq_error {α : Type} {named : List Int} {a : α}
    (h : (do report named; return a) = .error fault) : fault.isMismatch = false := by
  rcases bind_eq_error h with hreport | ⟨_, _, h⟩
  · rw [(report_eq_error_iff.mp hreport).2]
    rfl
  · cases h

theorem isMismatch_of_split_eq_error {candidates : List Candidate}
    {spendable minOutput threshold : Int} {fallback : Option String}
    (h : (split candidates spendable minOutput threshold fallback).outcome = .error fault) :
    fault.isMismatch = false := by
  rcases split_eq_error h with hfault | rfl | rfl
  · exact Fault.isMismatch_of_isOfArguments hfault
  · rfl
  · rfl

theorem FeeRule.isMismatch_of_ofTradeFee_eq_error {fee : Int}
    (h : FeeRule.ofTradeFee fee params = .error fault) : fault.isMismatch = false := by
  unfold FeeRule.ofTradeFee at h
  split at h
  · cases h
    rfl
  · split at h <;> cases h
    rfl

theorem FeeRule.isMismatch_of_afterFee_eq_error {n : Nat} {input : Int}
    (h : rule.afterFee n input = .error fault) : fault.isMismatch = false := by
  by_cases hneg : input < 0
  · rw [afterFee, if_pos hneg] at h
    cases h
    rfl
  by_cases hlt : input < rule.rate * rule.bytes n
  · rw [rule.afterFee_of_lt (Int.not_lt.mp hneg) hlt] at h
    cases h
    rfl
  rw [rule.afterFee_of_le (Int.not_lt.mp hlt)] at h
  exact isMismatch_of_report_eq_error h

theorem Trade.isMismatch_of_payout_eq_error {trade : Trade} {ledger : Ledger} {register : Register}
    (h : trade.payout params ledger register = .error fault) : fault.isMismatch = false := by
  by_cases hinput : trade.input < 0
  · rw [payout, if_pos hinput] at h
    cases h
    rfl
  by_cases hfee : trade.fee < 0
  · rw [payout, if_neg hinput, if_pos hfee] at h
    cases h
    rfl
  rw [Int.not_lt] at hinput hfee
  by_cases hnil : (register.inForceAt trade.selectionHeight).values = []
  · rw [payout_of_no_candidates hinput hfee hnil] at h
    rcases bind_eq_error h with hsplit | ⟨p, _, h⟩
    · exact isMismatch_of_split_eq_error hsplit
    · exact isMismatch_of_report_eq_error h
  rw [payout_of_candidates hinput hfee hnil] at h
  rcases bind_eq_error h with hrule | ⟨rule, _, h⟩
  · exact FeeRule.isMismatch_of_ofTradeFee_eq_error hrule
  rcases bind_eq_error h with hafter | ⟨spendable, _, h⟩
  · exact FeeRule.isMismatch_of_afterFee_eq_error hafter
  rcases bind_eq_error h with hsplit | ⟨p, _, h⟩
  · exact isMismatch_of_split_eq_error hsplit
  · exact isMismatch_of_report_eq_error h

/-! ## Outputs of a peer -/

theorem Output.isMalformedOutput_of_toReceiver_eq_error {o : Output}
    (h : o.toReceiver = .error fault) : fault.isMalformedOutput = true := by
  cases o with
  | receiver r => cases h
  | row amount address => cases h
  | ragged cells notTwo =>
    rw [← Except.error.inj h]
    split <;> rfl

/-- Outputs are refused because one is no pair, or because they are not ours, reported or not. -/
theorem checkOutputs_eq_error {height : Int} {expected : List Receiver} {outputs : List Output}
    (h : checkOutputs height expected outputs = .error fault) :
    fault.isMalformedOutput = true ∨ ∃ actual, outputs.mapM Output.toReceiver = .ok actual ∧
      expected ≠ actual ∧
      fault = if Reportable (height :: (expected ++ actual).map Receiver.amount) then
        .receiverMismatch expected actual else .tooManyDigits := by
  rcases bind_eq_error h with hm | ⟨actual, hactual, h⟩
  · obtain ⟨o, _, ho⟩ := exists_mem_of_mapM_eq_error hm
    exact .inl (Output.isMalformedOutput_of_toReceiver_eq_error ho)
  · by_cases heq : expected = actual
    · rw [if_pos heq] at h
      cases h
    · rw [if_neg heq, report_bind] at h
      refine .inr ⟨actual, hactual, heq, ?_⟩
      split
      case isTrue hreport =>
        rw [if_pos hreport] at h
        exact (Except.error.inj h).symm
      case isFalse hreport =>
        rw [if_neg hreport] at h
        exact (Except.error.inj h).symm

/-- An output that is no pair is refused as such, whatever stands before or behind it. -/
theorem checkOutputs_of_mem_ragged {outputs : List Output} {cells : Nat} {notTwo : cells ≠ 2}
    (height : Int) (expected : List Receiver) (h : .ragged cells notTwo ∈ outputs) :
    ∃ fault, fault.isMalformedOutput = true ∧
      checkOutputs height expected outputs = .error fault := by
  cases hm : outputs.mapM Output.toReceiver with
  | ok actual =>
    obtain ⟨r, hr⟩ := exists_ok_of_mem hm h
    cases hr
  | error fault =>
    obtain ⟨o, _, ho⟩ := exists_mem_of_mapM_eq_error hm
    refine ⟨fault, Output.isMalformedOutput_of_toReceiver_eq_error ho, ?_⟩
    simp [checkOutputs, hm, bind, Except.bind]

end DelayedPayout
