import DelayedPayout.Proofs.Network.Run
import DelayedPayout.Proofs.Trade.Outcome

/-!
Which outputs are worth their place. Those of the candidates always are: smaller ones are dropped, and
the trimmed one is dropped as well if it gets too small. A remainder is held against a threshold of its
own instead, so the output of the fallback address may be less (`Network.outputs_worth_iff`).
-/

namespace DelayedPayout

open Number

section Split

variable {candidates : List Candidate} {spendable minOutput threshold : Int}
  {fallback : Option String} {p : Payout}
  (h : PaysCandidates candidates spendable minOutput threshold fallback p)

include h

namespace PaysCandidates

theorem exists_remainder (ht : p.remainderToFallback = true) :
    ∃ r ∈ p.receivers, r.amount = p.remainder := by
  obtain ⟨tail, hrec, _, hto⟩ := h.receivers_eq
  obtain ⟨address, _, rfl⟩ := hto ht
  exact ⟨⟨p.remainder, address⟩, by simp [hrec], rfl⟩

/-- All outputs are worth the least amount unless the fallback address gets less. -/
theorem minOutput_le_receivers_iff :
    (∀ r ∈ p.receivers, minOutput ≤ r.amount) ↔
      (p.remainderToFallback = true → minOutput ≤ p.remainder) := by
  constructor
  · intro hall ht
    obtain ⟨r, hr, hamount⟩ := h.exists_remainder ht
    exact hamount ▸ hall r hr
  · intro hrem r hr
    rcases h.mem_receivers hr with hr | ⟨ht, hamount⟩
    · exact h.minOutput_le_amount hr
    · exact hamount ▸ hrem ht

end PaysCandidates

end Split

namespace Network

variable {tips meters parties : Nat} {net : Network tips meters parties} {i : Fin parties}
  {history : List (Fin parties × Request)} {trade : Trade} {p : Payout}

/-- **Every output is worth its place**, which is at least twice its own fee, except for a remainder
that is above the threshold for the fallback address and below the least output. -/
theorem outputs_worth_iff
    (hne : (((net.after history).registerOf i).inForceAt trade.selectionHeight).values ≠ [])
    (h : net.answer history i (.payout trade) = .ok (.payout p)) :
    ∃ rule, FeeRule.ofTradeFee trade.fee (net.paramsOf i) = .ok rule ∧
      2 * (rule.rate * (net.paramsOf i).outputSize) ≤ rule.leastOutput ∧
      (∀ r ∈ p.candidateOutputs, rule.leastOutput ≤ r.amount) ∧
      (p.remainderToFallback = true → (net.paramsOf i).minRemainderToFallback < p.remainder) ∧
      ((∀ r ∈ p.receivers, rule.leastOutput ≤ r.amount) ↔
        ¬(p.remainderToFallback = true ∧ p.remainder < rule.leastOutput)) ∧
      (rule.leastOutput ≤ (net.paramsOf i).minRemainderToFallback + 1 →
        ∀ r ∈ p.receivers, rule.leastOutput ≤ r.amount) := by
  obtain ⟨rule, spendable, hrule, _, hsplit⟩ := Trade.payout_eq_ok hne (payout_of_answer h)
  have hp := paysCandidates_of_split hne hsplit
  have hworth := rule.two_mul_le_leastOutput
  rw [(FeeRule.ofTradeFee_eq_ok hrule).1] at hworth
  have hto : p.remainderToFallback = true →
      ((net.paramsOf i).minRemainderToFallback : Int) < p.remainder :=
    fun ht => (hp.toFallback_iff.mp ht).2
  refine ⟨rule, hrule, hworth, fun r hr => hp.minOutput_le_amount hr, hto, ?_, ?_⟩
  · rw [hp.minOutput_le_receivers_iff]
    simp only [not_and, Int.not_lt]
  · intro hle
    apply hp.minOutput_le_receivers_iff.mpr
    intro ht
    have := hto ht
    omega

/-- A candidate with three quarters of the shares, and one without an address. -/
def absentQuarter : Network 1 1 1 :=
  solo [⟨"present", .real (Binary64.ofBits 0x3fe8000000000000), some "x"⟩,
    ⟨"absent", .real (Binary64.ofBits 0x3fd0000000000000), none⟩]

/-- A trade at a rate of 1000: the fee of two outputs is 115000 satoshis, the least output 64000. -/
def dearTrade (spendable : Int) : Trade where
  selectionHeight := 100
  input := spendable + 115000
  fee := 278000

/-- The quarter of the absent candidate goes to the fallback address. -/
def absentQuarterPayout (quarter : Int) : Payout where
  receivers := [⟨3 * quarter, "x"⟩, ⟨quarter, "fallback"⟩]
  spendable := 4 * quarter
  skipped := 1
  remainder := quarter
  remainderToFallback := true

theorem outputs_worth_absentQuarter :
    absentQuarter.answer [] 0 (.payout (dearTrade 400000)) =
        .ok (.payout (absentQuarterPayout 100000)) ∧
      ∀ r ∈ (absentQuarterPayout 100000).receivers, 64000 ≤ r.amount := by
  have hp : absentQuarter.answer [] 0 (.payout (dearTrade 400000)) =
      .ok (.payout (absentQuarterPayout 100000)) := by decide +kernel
  have hr : FeeRule.ofTradeFee 278000 (absentQuarter.paramsOf 0) = .ok ⟨1000, .standard⟩ := by
    decide +kernel
  obtain ⟨rule, hrule, _, _, _, hiff, _⟩ := outputs_worth_iff (by decide +kernel) hp
  cases hr.symm.trans hrule
  exact ⟨hp, hiff.mpr (by decide)⟩

/-- The fallback address gets 55000 satoshis: more than the threshold, but less than the least output
and less than twice the fee of the output. -/
theorem remainder_below_leastOutput :
    absentQuarter.answer [] 0 (.payout (dearTrade 220000)) =
        .ok (.payout (absentQuarterPayout 55000)) ∧
      FeeRule.ofTradeFee (dearTrade 220000).fee (absentQuarter.paramsOf 0) =
        .ok ⟨1000, .standard⟩ ∧
      ∃ r ∈ (absentQuarterPayout 55000).receivers,
        r.amount < FeeRule.leastOutput ⟨1000, .standard⟩ ∧
          r.amount < 2 * (1000 * Params.standard.outputSize) := by
  decide +kernel

end Network

end DelayedPayout
