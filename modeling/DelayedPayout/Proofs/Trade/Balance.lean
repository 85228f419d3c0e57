import DelayedPayout.Proofs.Network.Run
import DelayedPayout.Proofs.Trade.Outcome

/-!
The balance of a trade. With candidates the fee of one output a candidate is set aside first: an input
below it is refused (`FeeRule.afterFee_of_lt`), and of any other the outputs, that fee and what is left to
the miner are all there is. Without candidates nothing is set aside, and the fee of the trade does not
matter (`Trade.payout_of_answered`, `Trade.payout_of_unanswered`). Main statement: `Network.trade_balances`.
-/

namespace DelayedPayout

open Number

/-! ## Splits without candidates -/

def Payout.wholeTo (address : String) (amount : Int) : Payout where
  receivers := [⟨amount, address⟩]
  spendable := amount
  fallbackOnly := true

theorem Payout.burned_wholeTo (address : String) (amount : Int) :
    (Payout.wholeTo address amount).burned = 0 := by
  simp [burned, total, wholeTo, Receiver.total]

section SplitNil

variable {spendable minOutput threshold : Int} {fallback : Option String} (hs : 0 ≤ spendable)
  (hm : 0 ≤ minOutput)

include hs hm

theorem split_nil_of_answered {address : String} (ha : answered fallback address) :
    (split [] spendable minOutput threshold fallback).outcome = .ok (.wholeTo address spendable) := by
  simp only [split, Draft.ofCandidates_nil hs hm, Draft.withoutCandidates, Draft.settle,
    answered_iff.mpr ha, Draft.close_eq_ok_iff]
  exact ⟨reportable_nil, rfl⟩

theorem split_nil_of_unanswered (hun : Unanswered fallback) :
    (split [] spendable minOutput threshold fallback).outcome = .error .noFallbackAddress := by
  simp only [split, Draft.ofCandidates_nil hs hm, Draft.withoutCandidates, Draft.settle,
    filter_eq_none_iff_unanswered.mpr hun]

end SplitNil

/-! ## Payouts of a trade -/

namespace Trade

variable {trade : Trade} {params : Params} {ledger : Ledger} {register : Register}

/-- The input is paid out, left to the miner or reserved. -/
theorem balance_of_payout {rule : FeeRule} {reserved : Int} {p : Payout}
    (hne : (register.inForceAt trade.selectionHeight).values ≠ [])
    (hrule : FeeRule.ofTradeFee trade.fee params = .ok rule)
    (hreserved : reserved =
      rule.rate * rule.bytes (register.inForceAt trade.selectionHeight).values.length)
    (h : trade.payout params ledger register = .ok p) :
    trade.input = p.total + p.burned + reserved ∧ 0 ≤ p.burned ∧
      p.spendable = trade.input - reserved ∧
      p.receivers.length ≤ (register.inForceAt trade.selectionHeight).values.length + 1 := by
  obtain ⟨rule', spendable, hrule', hs, hsplit⟩ := payout_eq_ok hne h
  cases hrule.symm.trans hrule'
  have hpays := paysCandidates_of_split hne hsplit
  have hspendable := hpays.spendable_eq
  have hleft := FeeRule.afterFee_eq_ok hs
  rw [← hreserved] at hleft
  refine ⟨?_, ?_, ?_, length_receivers_le_succ hne hsplit⟩
  · rw [Payout.burned]
    omega
  · have hremainder := hpays.remainder_nonneg
    rw [burned_of_split hsplit]
    split <;> omega
  · omega

variable (hinput : 0 ≤ trade.input) (hfee : 0 ≤ trade.fee)

include hinput hfee

/-- An address gets the whole input, once the line about that is written. -/
theorem payout_of_answered {address : String}
    (hnil : (register.inForceAt trade.selectionHeight).values = [])
    (ha : answered (ledger.fallbackAt trade.selectionHeight) address) :
    trade.payout params ledger register = do
      report [trade.selectionHeight, trade.input]
      return .wholeTo address trade.input := by
  rw [payout_of_no_candidates hinput hfee hnil, split_nil_of_answered hinput (Int.le_refl 0) ha]
  simp only [bind, Except.bind]

theorem payout_of_unanswered (hnil : (register.inForceAt trade.selectionHeight).values = [])
    (hun : Unanswered (ledger.fallbackAt trade.selectionHeight)) :
    trade.payout params ledger register = .error .noFallbackAddress := by
  rw [payout_of_no_candidates hinput hfee hnil, split_nil_of_unanswered hinput (Int.le_refl 0) hun]
  rfl

theorem payout_eq_ok_iff_answered {p : Payout}
    (hnil : (register.inForceAt trade.selectionHeight).values = [])
    (hreport : Reportable [trade.selectionHeight, trade.input]) :
    trade.payout params ledger register = .ok p ↔
      ∃ address, answered (ledger.fallbackAt trade.selectionHeight) address ∧
        p = .wholeTo address trade.input ∧ p.burned = 0 := by
  constructor
  · intro h
    obtain ⟨_, _, hsplit, _⟩ := (payout_eq_ok_iff_of_no_candidates hnil).mp h
    obtain ⟨_, _, address, ha, hp⟩ := split_nil_eq_ok hsplit
    exact ⟨address, ha, hp, hp ▸ Payout.burned_wholeTo _ _⟩
  · rintro ⟨address, ha, rfl, _⟩
    rw [payout_of_answered hinput hfee hnil ha, report_of_reportable hreport]
    rfl

theorem payout_of_afterFee_error {rule : FeeRule} {fault : Fault}
    (hne : (register.inForceAt trade.selectionHeight).values ≠ [])
    (hrule : FeeRule.ofTradeFee trade.fee params = .ok rule)
    (h : rule.afterFee (register.inForceAt trade.selectionHeight).values.length trade.input =
      .error fault) :
    trade.payout params ledger register = .error fault := by
  rw [payout_of_candidates hinput hfee hne, hrule]
  simp only [bind, Except.bind, h]

end Trade

namespace Network

variable {tips meters parties : Nat}

/-- A trade at the least rate: the fee of two outputs is 1150 satoshis. -/
def cheapTrade (input : Int) : Trade where
  selectionHeight := 100
  input
  fee := 0

/-- A trade fee beyond the range of binary numbers. -/
def priceless : Trade where
  selectionHeight := 100
  input := 500
  fee := Nat.pow 10 400

/-- A trade whose input cannot be written. -/
def unwritten : Trade where
  selectionHeight := 100
  input := Nat.pow 10 maxDigits
  fee := 0

/-- A satoshi of rounding is trimmed off the larger half. -/
def unevenHalves : Payout where
  receivers := [⟨50000, "y"⟩, ⟨50001, "x"⟩]
  spendable := 100001
  roundingExcess := 1

end Network

end DelayedPayout
