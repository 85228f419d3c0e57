import DelayedPayout.Network.Party
import DelayedPayout.Proofs.Payout.Accounting

/-!
The outcome of a trade with candidates, read off once: there is a fee rule, the fee of one output a
candidate is reserved by it, and the rest is split (`Trade.payout_eq_ok`). What the outputs leave of the
input is that fee and what was burned (`PaysCandidates.input_sub_total`).
-/

namespace DelayedPayout

open Number

/-! ## Fee rules -/

namespace FeeRule

variable {rule : FeeRule} {params : Params} {fee : Int}

theorem ofTradeFee_eq_ok (h : ofTradeFee fee params = .ok rule) :
    rule.params = params ∧ params.minTxFeeRate ≤ rule.rate := by
  unfold ofTradeFee at h
  split at h
  · cases h
  · split at h
    · cases h
    · cases h
      refine ⟨rfl, ?_⟩
      simp only
      omega

/-- The size of a transaction with so many outputs, in virtual bytes. -/
def bytes (rule : FeeRule) (outputs : Nat) : Nat :=
  rule.params.baseTxSize + outputs * rule.params.outputSize

theorem size_natCast (rule : FeeRule) (n : Nat) : rule.size n = .ok (rule.bytes n) := by
  rw [size, if_neg (by omega), bytes]
  push_cast
  rfl

theorem fee_natCast (rule : FeeRule) (n : Nat) : rule.fee n = .ok (rule.rate * rule.bytes n) := by
  simp only [fee, size_natCast, bind, Except.bind, pure, Except.pure]

theorem bytes_le_bytes (rule : FeeRule) {m n : Nat} (h : m ≤ n) : rule.bytes m ≤ rule.bytes n :=
  Nat.add_le_add_left (Nat.mul_le_mul_right _ h) _

theorem bytes_succ (rule : FeeRule) (n : Nat) :
    rule.bytes (n + 1) = rule.bytes n + rule.params.outputSize := by
  rw [bytes, bytes, Nat.succ_mul, Nat.add_assoc]

theorem fee_nonneg (rule : FeeRule) (n : Nat) : (0 : Int) ≤ rule.rate * rule.bytes n :=
  Int.mul_nonneg (Int.natCast_nonneg _) (Int.natCast_nonneg _)

theorem afterFee_of_lt (rule : FeeRule) {n : Nat} {input : Int} (hinput : 0 ≤ input)
    (hlt : input < rule.rate * rule.bytes n) :
    rule.afterFee n input = .error (.feeNotCovered input (rule.rate * rule.bytes n) n) := by
  rw [afterFee, if_neg (Int.not_lt.mpr hinput)]
  simp only [fee_natCast, bind, Except.bind]
  rw [if_pos (by omega)]

theorem afterFee_of_le (rule : FeeRule) {n : Nat} {input : Int}
    (hle : rule.rate * rule.bytes n ≤ input) :
    rule.afterFee n input = do
      report [rule.rate, rule.bytes n, rule.rate * rule.bytes n, input - rule.rate * rule.bytes n]
      return input - rule.rate * rule.bytes n := by
  have hfee := rule.fee_nonneg n
  rw [afterFee, if_neg (by omega)]
  simp only [size_natCast, fee_natCast, bind, Except.bind]
  rw [if_neg (by omega)]

/-- The fee of `n` outputs is reserved if the input covers it and the line about it can be written. -/
theorem afterFee_eq_ok_iff {n : Nat} {input spendable : Int} :
    rule.afterFee n input = .ok spendable ↔
      0 ≤ spendable ∧ input = spendable + rule.rate * rule.bytes n ∧
        Reportable [rule.rate, rule.bytes n, rule.rate * rule.bytes n, spendable] := by
  have hfee := rule.fee_nonneg n
  by_cases hneg : input < 0
  · rw [afterFee, if_pos hneg]
    simp only [reduceCtorEq, false_iff]
    omega
  by_cases hlt : input < rule.rate * rule.bytes n
  · rw [rule.afterFee_of_lt (Int.not_lt.mp hneg) hlt]
    simp only [reduceCtorEq, false_iff]
    omega
  rw [rule.afterFee_of_le (Int.not_lt.mp hlt), report_bind_eq_ok_iff]
  constructor
  · rintro ⟨hreport, hspendable⟩
    cases hspendable
    exact ⟨by omega, by omega, hreport⟩
  · rintro ⟨_, rfl, hreport⟩
    rw [Int.add_sub_cancel]
    exact ⟨hreport, rfl⟩

theorem exists_natCast_of_afterFee {outputs input spendable : Int}
    (h : rule.afterFee outputs input = .ok spendable) : ∃ n : Nat, outputs = n := by
  apply Int.eq_ofNat_of_zero_le
  apply Int.not_lt.mp
  intro hneg
  simp only [afterFee, fee, size, if_pos hneg, bind, Except.bind] at h
  split at h <;> cases h

/-- What is left once the fee of `n` outputs is reserved. -/
theorem afterFee_eq_ok {n : Nat} {input spendable : Int}
    (h : rule.afterFee n input = .ok spendable) : input = spendable + rule.rate * rule.bytes n :=
  (afterFee_eq_ok_iff.mp h).2.1

/-- An output is worth at least twice its own fee. -/
theorem two_mul_le_leastOutput (rule : FeeRule) :
    2 * (rule.rate * rule.params.outputSize) ≤ rule.leastOutput := by
  unfold leastOutput
  omega

end FeeRule

/-! ## Trades -/

variable {trade : Trade} {params : Params} {ledger : Ledger} {register : Register} {p : Payout}

namespace Trade

/-- The amounts of a trade are looked at first. -/
theorem nonneg_of_payout (h : trade.payout params ledger register = .ok p) :
    0 ≤ trade.input ∧ 0 ≤ trade.fee := by
  by_cases hinput : trade.input < 0
  · simp [payout, hinput] at h
  by_cases hfee : trade.fee < 0
  · simp [payout, hinput, hfee] at h
  exact ⟨Int.not_lt.mp hinput, Int.not_lt.mp hfee⟩

section Nonneg

variable (hinput : 0 ≤ trade.input) (hfee : 0 ≤ trade.fee)

include hinput hfee

theorem payout_of_no_candidates (hnil : (register.inForceAt trade.selectionHeight).values = []) :
    trade.payout params ledger register = do
      let p ← (split [] trade.input 0 params.minRemainderToFallback
        (ledger.fallbackAt trade.selectionHeight)).outcome
      report [trade.selectionHeight, trade.input]
      return p := by
  rw [payout, if_neg (Int.not_lt.mpr hinput), if_neg (Int.not_lt.mpr hfee), hnil]
  rfl

theorem payout_of_candidates (hne : (register.inForceAt trade.selectionHeight).values ≠ []) :
    trade.payout params ledger register = do
      let rule ← FeeRule.ofTradeFee trade.fee params
      let spendable ← rule.afterFee (register.inForceAt trade.selectionHeight).values.length trade.input
      let p ← (split (register.inForceAt trade.selectionHeight).values spendable rule.leastOutput
        params.minRemainderToFallback (ledger.fallbackAt trade.selectionHeight)).outcome
      report (if p.remainderToFallback then [p.remainder, trade.selectionHeight] else [])
      return p := by
  rw [payout, if_neg (Int.not_lt.mpr hinput), if_neg (Int.not_lt.mpr hfee)]
  exact if_neg (by simpa using hne)

end Nonneg

theorem payout_eq_ok_iff_of_no_candidates
    (hnil : (register.inForceAt trade.selectionHeight).values = []) :
    trade.payout params ledger register = .ok p ↔ 0 ≤ trade.input ∧ 0 ≤ trade.fee ∧
      (split [] trade.input 0 params.minRemainderToFallback
        (ledger.fallbackAt trade.selectionHeight)).outcome = .ok p ∧
      Reportable [trade.selectionHeight, trade.input] := by
  constructor
  · intro h
    obtain ⟨hinput, hfee⟩ := nonneg_of_payout h
    rw [payout_of_no_candidates hinput hfee hnil, bind_eq_ok_iff] at h
    obtain ⟨q, hsplit, h⟩ := h
    obtain ⟨hreport, hq⟩ := report_bind_eq_ok_iff.mp h
    cases hq
    exact ⟨hinput, hfee, hsplit, hreport⟩
  · rintro ⟨hinput, hfee, hsplit, hreport⟩
    rw [payout_of_no_candidates hinput hfee hnil, bind_eq_ok_iff]
    exact ⟨p, hsplit, report_bind_eq_ok_iff.mpr ⟨hreport, rfl⟩⟩

theorem payout_eq_ok_iff (hne : (register.inForceAt trade.selectionHeight).values ≠ []) :
    trade.payout params ledger register = .ok p ↔ 0 ≤ trade.input ∧ 0 ≤ trade.fee ∧
      ∃ rule spendable, FeeRule.ofTradeFee trade.fee params = .ok rule ∧
        rule.afterFee (register.inForceAt trade.selectionHeight).values.length trade.input =
          .ok spendable ∧
        (split (register.inForceAt trade.selectionHeight).values spendable rule.leastOutput
          params.minRemainderToFallback (ledger.fallbackAt trade.selectionHeight)).outcome = .ok p ∧
        Reportable (if p.remainderToFallback then [p.remainder, trade.selectionHeight] else []) := by
  constructor
  · intro h
    obtain ⟨hinput, hfee⟩ := nonneg_of_payout h
    rw [payout_of_candidates hinput hfee hne, bind_eq_ok_iff] at h
    obtain ⟨rule, hrule, h⟩ := h
    obtain ⟨spendable, hafter, h⟩ := bind_eq_ok_iff.mp h
    obtain ⟨q, hsplit, h⟩ := bind_eq_ok_iff.mp h
    obtain ⟨hreport, hq⟩ := report_bind_eq_ok_iff.mp h
    cases hq
    exact ⟨hinput, hfee, rule, spendable, hrule, hafter, hsplit, hreport⟩
  · rintro ⟨hinput, hfee, rule, spendable, hrule, hafter, hsplit, hreport⟩
    rw [payout_of_candidates hinput hfee hne, bind_eq_ok_iff]
    refine ⟨rule, hrule, bind_eq_ok_iff.mpr ⟨spendable, hafter, bind_eq_ok_iff.mpr ⟨p, hsplit, ?_⟩⟩⟩
    exact report_bind_eq_ok_iff.mpr ⟨hreport, rfl⟩

theorem payout_eq_ok (hne : (register.inForceAt trade.selectionHeight).values ≠ [])
    (h : trade.payout params ledger register = .ok p) :
    ∃ rule spendable, FeeRule.ofTradeFee trade.fee params = .ok rule ∧
      rule.afterFee (register.inForceAt trade.selectionHeight).values.length trade.input =
        .ok spendable ∧
      (split (register.inForceAt trade.selectionHeight).values spendable rule.leastOutput
        params.minRemainderToFallback (ledger.fallbackAt trade.selectionHeight)).outcome = .ok p := by
  obtain ⟨_, _, rule, spendable, hrule, hafter, hsplit, _⟩ := (payout_eq_ok_iff hne).mp h
  exact ⟨rule, spendable, hrule, hafter, hsplit⟩

theorem burned_of_payout (h : trade.payout params ledger register = .ok p) :
    p.burned = if p.remainderToFallback then 0 else p.remainder := by
  by_cases hne : (register.inForceAt trade.selectionHeight).values = []
  · obtain ⟨_, _, hsplit, _⟩ := (payout_eq_ok_iff_of_no_candidates hne).mp h
    exact burned_of_split hsplit
  · obtain ⟨rule, spendable, _, _, hsplit⟩ := payout_eq_ok hne h
    exact burned_of_split hsplit

/-- Every amount that is paid out can be written: the line about the fee names the amount that is split, the
closing line the remainder. -/
theorem writable_amount_of_payout (h : trade.payout params ledger register = .ok p) {r : Receiver}
    (hr : r ∈ p.receivers) : Writable r.amount := by
  by_cases hne : (register.inForceAt trade.selectionHeight).values = []
  · obtain ⟨_, _, hsplit, hreport⟩ := (payout_eq_ok_iff_of_no_candidates hne).mp h
    obtain ⟨_, _, address, _, rfl⟩ := split_nil_eq_ok hsplit
    rw [List.mem_singleton.mp hr]
    exact hreport _ (by simp)
  · obtain ⟨rule, spendable, _, hafter, hsplit⟩ := payout_eq_ok hne h
    have hpays := paysCandidates_of_split hne hsplit
    have hspendable : Writable spendable := by
      have hreport := (FeeRule.afterFee_eq_ok_iff.mp hafter).2.2
      simp only [reportable_cons] at hreport
      exact hreport.2.2.2.1
    have hnonneg := hpays.amount_nonneg hr
    have hle := hpays.amount_le hr
    exact hspendable.of_natAbs_le (by omega)

end Trade

/-- What the outputs leave of the input is the reserved fee, and a remainder that nobody gets. -/
theorem PaysCandidates.input_sub_total {candidates : List Candidate}
    {input spendable minOutput threshold : Int} {fallback : Option String} {rule : FeeRule}
    (h : PaysCandidates candidates spendable minOutput threshold fallback p)
    (hs : rule.afterFee candidates.length input = .ok spendable) :
    input - p.total =
      rule.rate * rule.bytes candidates.length +
        (if p.remainderToFallback then 0 else p.remainder) := by
  rw [FeeRule.afterFee_eq_ok hs, h.total_eq]
  omega

end DelayedPayout
