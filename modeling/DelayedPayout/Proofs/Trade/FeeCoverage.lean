import DelayedPayout.Proofs.Network.Run
import DelayedPayout.Proofs.Trade.Outcome

/-!
Whether what a payout leaves to the miner covers the transaction that is built. A fee is reserved for
one output a candidate, so it covers every transaction but one with an output more: that in which all
candidates are paid, and the fallback address gets the remainder (`Network.fee_covers_iff`).
-/

namespace DelayedPayout

open Number

section Split

variable {candidates : List Candidate} {input spendable minOutput threshold : Int}
  {fallback : Option String} {rule : FeeRule} {p : Payout} (hne : candidates ≠ [])
  (h : (split candidates spendable minOutput threshold fallback).outcome = .ok p)

include hne h

theorem length_receivers_of_paysAll (hall : p.PaysAll) :
    p.receivers.length = candidates.length + 1 := by
  have hle := length_receivers_le_succ hne h
  have hlt : ¬p.receivers.length ≤ candidates.length := fun hle' =>
    (length_receivers_le_iff hne h).mp hle' hall
  omega

theorem fee_le_of_not_paysAll (hs : rule.afterFee candidates.length input = .ok spendable)
    (hall : ¬p.PaysAll) : (rule.rate * rule.bytes p.receivers.length : Int) ≤ input - p.total := by
  have hp := paysCandidates_of_split hne h
  have hsize := rule.bytes_le_bytes ((length_receivers_le_iff hne h).mpr hall)
  have hfee : (rule.rate * rule.bytes p.receivers.length : Int) ≤
      rule.rate * rule.bytes candidates.length := by
    exact_mod_cast Nat.mul_le_mul_left rule.rate hsize
  have hrem := hp.remainder_nonneg
  rw [hp.input_sub_total hs]
  split <;> omega

/-- The fee of the output for the fallback address is not reserved. -/
theorem fee_of_paysAll (hs : rule.afterFee candidates.length input = .ok spendable)
    (hall : p.PaysAll) :
    (rule.rate * rule.bytes p.receivers.length : Int) =
      input - p.total + rule.rate * rule.params.outputSize := by
  have hp := paysCandidates_of_split hne h
  rw [hp.input_sub_total hs, if_pos hall.1, length_receivers_of_paysAll hne h hall, rule.bytes_succ,
    Int.natCast_add, Int.mul_add, Int.add_zero]

end Split

namespace Network

variable {tips meters parties : Nat} {net : Network tips meters parties} {i : Fin parties}
  {history : List (Fin parties × Request)} {trade : Trade} {p : Payout}

/-- **The fee covers the transaction**, and at no less than the least rate, unless all candidates and
the fallback address are paid and outputs are not free; then what is missing is the fee of one
output. -/
theorem fee_covers_iff
    (hne : (((net.after history).registerOf i).inForceAt trade.selectionHeight).values ≠ [])
    (h : net.answer history i (.payout trade) = .ok (.payout p)) :
    ∃ rule size, FeeRule.ofTradeFee trade.fee (net.paramsOf i) = .ok rule ∧
      rule.size p.receivers.length = .ok size ∧
      (rule.rate * size ≤ trade.input - p.total ↔
        ¬p.PaysAll ∨ rule.rate * (net.paramsOf i).outputSize = 0) ∧
      (¬p.PaysAll → (net.paramsOf i).minTxFeeRate * size ≤ trade.input - p.total) ∧
      rule.rate * (size - (net.paramsOf i).outputSize) ≤ trade.input - p.total := by
  obtain ⟨rule, spendable, hrule, hs, hp⟩ := Trade.payout_eq_ok hne (payout_of_answer h)
  obtain ⟨hparams, hrate⟩ := FeeRule.ofTradeFee_eq_ok hrule
  refine ⟨rule, _, hrule, rule.size_natCast _, ?_⟩
  rw [← hparams] at hrate ⊢
  rw [Int.mul_sub]
  by_cases hall : p.PaysAll
  · have hfee := fee_of_paysAll hne hp hs hall
    refine ⟨⟨fun hle => .inr ?_, ?_⟩, fun hnot => (hnot hall).elim, ?_⟩
    · have : ((rule.rate * rule.params.outputSize : Nat) : Int) ≤ 0 := by
        push_cast
        omega
      omega
    · rintro (hnot | hfree)
      · exact (hnot hall).elim
      · have : ((rule.rate * rule.params.outputSize : Nat) : Int) = 0 := by rw [hfree]; rfl
        push_cast at this
        omega
    · omega
  · have hfee := fee_le_of_not_paysAll hne hp hs hall
    have hoff : 0 ≤ (rule.rate * rule.params.outputSize : Int) :=
      Int.mul_nonneg (Int.natCast_nonneg _) (Int.natCast_nonneg _)
    have hleast : (rule.params.minTxFeeRate * rule.bytes p.receivers.length : Int) ≤
        rule.rate * rule.bytes p.receivers.length := by
      exact_mod_cast Nat.mul_le_mul_right (rule.bytes p.receivers.length) hrate
    exact ⟨iff_of_true hfee (.inl hall), fun _ => hleast.trans hfee, by omega⟩

/-- A candidate with half of the shares. -/
def heir : Candidate := ⟨"heir", .real (Binary64.ofBits 0x3fe0000000000000), some "x"⟩

/-- The heir with a candidate whose output is dropped. -/
def heirAndPauper : Network 1 1 1 := solo [heir, ⟨"pauper", .int 0, some "y"⟩]

/-- The fee of two outputs is 1150 satoshis at the least rate. -/
def heirAndPauperTrade : Trade where
  selectionHeight := 100
  input := 1001150
  fee := 0

def heirAndPauperPayout : Payout where
  receivers := [⟨500000, "x"⟩, ⟨500000, "fallback"⟩]
  spendable := 1000000
  dust := 1
  remainder := 500000
  remainderToFallback := true

theorem fee_covers_heirAndPauper :
    heirAndPauper.answer [] 0 (.payout heirAndPauperTrade) = .ok (.payout heirAndPauperPayout) ∧
      10 * 115 ≤ heirAndPauperTrade.input - heirAndPauperPayout.total := by
  have hp : heirAndPauper.answer [] 0 (.payout heirAndPauperTrade) =
      .ok (.payout heirAndPauperPayout) := by decide +kernel
  have hr : FeeRule.ofTradeFee 0 (heirAndPauper.paramsOf 0) = .ok ⟨10, .standard⟩ := by
    decide +kernel
  obtain ⟨rule, size, hrule, hsize, hiff, _⟩ := fee_covers_iff (by decide +kernel) hp
  cases hr.symm.trans hrule
  cases hsize
  exact ⟨hp, hiff.mpr (.inl (by decide))⟩

/-- The fee of one output is 830 satoshis. -/
def heirTrade : Trade where
  selectionHeight := 100
  input := 1000830
  fee := 0

def heirPayout : Payout where
  receivers := [⟨500000, "x"⟩, ⟨500000, "fallback"⟩]
  spendable := 1000000
  remainder := 500000
  remainderToFallback := true

/-- The heir alone is paid, and the fallback address too: the transaction has two outputs, and pays for
one of them. -/
theorem fee_short_of_second_output :
    (solo [heir]).answer [] 0 (.payout heirTrade) = .ok (.payout heirPayout) ∧
      FeeRule.ofTradeFee heirTrade.fee ((solo [heir]).paramsOf 0) = .ok ⟨10, .standard⟩ ∧
      FeeRule.size ⟨10, .standard⟩ heirPayout.receivers.length = .ok 115 ∧
      ¬10 * 115 ≤ heirTrade.input - heirPayout.total ∧
      Params.standard.minTxFeeRate = 10 := by
  decide +kernel

end Network

end DelayedPayout
