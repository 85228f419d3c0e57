import DelayedPayout.Proofs.Payout.Outcome
import DelayedPayout.Proofs.Payout.Trimming

/-!
Conservation: a split pays out, leaves to the miner or sends to the fallback address every satoshi of
the amount, and no other. The balance is that of trimming (`total_trim`), carried over to the payout.
-/

namespace DelayedPayout

open Number Receiver

variable {candidates : List Candidate} {spendable minOutput threshold : Int}
  {fallback : Option String} {p : Payout}

theorem mem_keptOutputs {r : Receiver} (h : r ∈ keptOutputs candidates spendable minOutput) :
    minOutput ≤ r.amount := by
  rw [keptOutputs, mem_sort, List.mem_filter] at h
  simpa using h.2

/-! ## The leftover -/

/-- What the outputs leave of the whole once they are trimmed. -/
def leftover (candidates : List Candidate) (spendable minOutput : Int) : Int :=
  spendable - total (trimmedOutputs candidates spendable minOutput).descending

theorem leftover_eq :
    leftover candidates spendable minOutput =
      -(trimmedOutputs candidates spendable minOutput).excess := by
  unfold leftover trimmedOutputs
  rw [total_trim, total_reverse]
  omega

theorem leftover_nonneg (candidates : List Candidate) (minOutput : Int) (hs : 0 ≤ spendable) :
    0 ≤ leftover candidates spendable minOutput := by
  have ht : (trimmedOutputs candidates spendable minOutput).excess ≤ 0 := by
    apply excess_trim_nonpos
    rw [total_reverse]
    omega
  rw [leftover_eq]
  omega

theorem leftover_le (candidates : List Candidate) (spendable : Int) (hm : 0 ≤ minOutput) :
    leftover candidates spendable minOutput ≤ spendable := by
  have hamounts : ∀ r ∈ (trimmedOutputs candidates spendable minOutput).descending, 0 ≤ r.amount := by
    refine le_amount_of_mem_trim hm fun r hr => ?_
    have := mem_keptOutputs (List.mem_reverse.mp hr)
    omega
  have htotal := total_nonneg hamounts
  unfold leftover
  omega

theorem writable_leftover (candidates : List Candidate) (hs : 0 ≤ spendable) (hm : 0 ≤ minOutput)
    (hw : Writable spendable) : Writable (leftover candidates spendable minOutput) := by
  have hnonneg := leftover_nonneg candidates minOutput hs
  have hle := leftover_le candidates spendable hm
  exact hw.of_natAbs_le (by omega)

/-- The leftover is what the closing line of a draft names, and it goes to the fallback address if it is
above the threshold. -/
theorem Draft.leftover_of_ofCandidates {d : Draft} (hne : candidates ≠ [])
    (h : Draft.ofCandidates candidates spendable minOutput threshold = .ok d) :
    d.reported = [leftover candidates spendable minOutput] ∧
      (d.payout.remainderToFallback = true ↔
        max 0 threshold < leftover candidates spendable minOutput) := by
  obtain ⟨_, _, ho⟩ := Draft.ofCandidates_eq_ok hne h
  have hle := (Draft.ofOutputs_eq_ok ho).1
  rw [Draft.ofOutputs, if_neg (by omega)] at ho
  rw [← Except.ok.inj ho, leftover_eq]
  refine ⟨rfl, ?_⟩
  simp only [trimmedOutputs, Bool.and_eq_true, decide_eq_true_eq]
  omega

/-- Out of an amount that can be written there is a closing line that can be. -/
theorem Draft.reportable_of_ofCandidates {d : Draft} (hw : Writable spendable)
    (h : Draft.ofCandidates candidates spendable minOutput threshold = .ok d) :
    Reportable d.reported := by
  by_cases hne : candidates = []
  · subst hne
    obtain ⟨_, _, rfl⟩ := Draft.ofCandidates_nil_eq_ok h
    exact reportable_nil
  · obtain ⟨hs, hm, _⟩ := Draft.ofCandidates_eq_ok hne h
    rw [(Draft.leftover_of_ofCandidates hne h).1, reportable_singleton]
    exact writable_leftover candidates hs hm hw

namespace PaysCandidates

variable (h : PaysCandidates candidates spendable minOutput threshold fallback p)

include h

theorem minOutput_le_amount {r : Receiver} (hr : r ∈ p.candidateOutputs) :
    minOutput ≤ r.amount := by
  rw [h.candidateOutputs_eq, List.mem_reverse] at hr
  refine le_amount_of_mem_trim (Int.le_refl minOutput) ?_ r hr
  intro s hs
  exact mem_keptOutputs (List.mem_reverse.mp hs)

theorem total_candidateOutputs : total p.candidateOutputs = spendable - p.remainder := by
  rw [h.candidateOutputs_eq, total_reverse, trimmedOutputs, total_trim, total_reverse,
    h.remainder_eq, trimmedOutputs]
  omega

theorem remainder_nonneg : 0 ≤ p.remainder := by
  rw [h.remainder_eq, ← leftover_eq]
  exact leftover_nonneg candidates minOutput h.spendable_nonneg

/-- The receivers are the outputs of the candidates, and behind them the remainder if the fallback
address gets it. -/
theorem receivers_eq : ∃ tail, p.receivers = p.candidateOutputs ++ tail ∧
    (p.remainderToFallback = false → tail = []) ∧
    (p.remainderToFallback = true →
      ∃ address, answered fallback address ∧ tail = [⟨p.remainder, address⟩]) := by
  rw [h.candidateOutputs_eq]
  cases ht : p.remainderToFallback with
  | false => exact ⟨[], by simp [h.receivers_of_not ht], fun _ => rfl, nofun⟩
  | true =>
    obtain ⟨address, ha, hr⟩ := h.receivers_of_toFallback ht
    exact ⟨_, hr, nofun, fun _ => ⟨address, ha, rfl⟩⟩

/-- A receiver is that of a candidate, or it gets the remainder. -/
theorem mem_receivers {r : Receiver} (hr : r ∈ p.receivers) :
    r ∈ p.candidateOutputs ∨ p.remainderToFallback = true ∧ r.amount = p.remainder := by
  obtain ⟨tail, hrec, hnot, hto⟩ := h.receivers_eq
  rw [hrec, List.mem_append] at hr
  refine hr.imp_right fun hr => ?_
  cases ht : p.remainderToFallback with
  | false => simp [hnot ht] at hr
  | true =>
    obtain ⟨address, _, rfl⟩ := hto ht
    exact ⟨rfl, by rw [List.mem_singleton.mp hr]⟩

theorem total_eq : p.total = spendable - (if p.remainderToFallback then 0 else p.remainder) := by
  obtain ⟨tail, hr, hnot, hto⟩ := h.receivers_eq
  rw [Payout.total, hr, total_append, h.total_candidateOutputs]
  cases ht : p.remainderToFallback with
  | false => simp [hnot ht]
  | true =>
    obtain ⟨address, _, rfl⟩ := hto ht
    simp

theorem amount_nonneg {r : Receiver} (hr : r ∈ p.receivers) : 0 ≤ r.amount := by
  have hm := h.minOutput_nonneg
  rcases h.mem_receivers hr with hr | ⟨_, hamount⟩
  · have := h.minOutput_le_amount hr
    omega
  · exact hamount ▸ h.remainder_nonneg

theorem amount_le {r : Receiver} (hr : r ∈ p.receivers) : r.amount ≤ spendable := by
  have hle : r.amount ≤ p.total := le_total_of_mem (fun s hs => h.amount_nonneg hs) hr
  have htotal := h.total_eq
  have hremainder := h.remainder_nonneg
  split at htotal <;> omega

theorem toFallback_iff_lt : p.remainderToFallback = true ↔ max 0 threshold < p.remainder := by
  rw [h.toFallback_iff]
  omega

end PaysCandidates

/-- A remainder that the fallback address does not get is left to the miner. -/
theorem burned_of_split
    (h : (split candidates spendable minOutput threshold fallback).outcome = .ok p) :
    p.burned = if p.remainderToFallback then 0 else p.remainder := by
  cases candidates with
  | nil =>
    obtain ⟨_, _, address, _, rfl⟩ := split_nil_eq_ok h
    simp [Payout.burned, Payout.total]
  | cons c rest =>
    have hp := paysCandidates_of_split (List.cons_ne_nil c rest) h
    have htotal := hp.total_eq
    rw [Payout.burned, hp.spendable_eq, htotal]
    omega

/-- **Conservation.** The outputs and what is left to the miner make up the amount that is split, and
neither is negative; the remainder goes to the fallback address exactly when it is above the
threshold, a negative threshold counting as none. -/
theorem split_conserves
    (h : (split candidates spendable minOutput threshold fallback).outcome = .ok p) :
    p.spendable = spendable ∧ (∀ r ∈ p.receivers, 0 ≤ r.amount) ∧ 0 ≤ p.remainder ∧
      p.total ≤ spendable ∧
      p.total + (if p.remainderToFallback then 0 else p.remainder) = spendable ∧
      p.burned = (if p.remainderToFallback || p.fallbackOnly then 0 else p.remainder) ∧
      (p.remainderToFallback = true ↔ max 0 threshold < p.remainder) := by
  cases candidates with
  | nil =>
    obtain ⟨hs, _, address, _, rfl⟩ := split_nil_eq_ok h
    simp [Payout.burned, Payout.total, hs]
  | cons c rest =>
    have hp := paysCandidates_of_split (List.cons_ne_nil c rest) h
    have htotal := hp.total_eq
    have hrem := hp.remainder_nonneg
    refine ⟨hp.spendable_eq, fun r hr => hp.amount_nonneg hr, hrem, ?_, ?_, ?_,
      hp.toFallback_iff_lt⟩
    · rw [htotal]
      split <;> omega
    · rw [htotal]
      omega
    · rw [Payout.burned, hp.spendable_eq, htotal, hp.fallbackOnly_eq, Bool.or_false]
      omega

def halves : List Candidate :=
  [⟨"first", .real (Binary64.ofBits 0x3fe0000000000000), some "y"⟩,
    ⟨"second", .real (Binary64.ofBits 0x3fe0000000000000), some "x"⟩]

/-- What the halves of three satoshis come to if outputs of one satoshi are too small: both are rounded
up to two, one of them is dropped, and the satoshi that is left goes to the fallback address. -/
def halvesOfThree : Payout where
  receivers := [⟨2, "x"⟩, ⟨1, "fallback"⟩]
  spendable := 3
  dust := 1
  remainder := 1
  remainderToFallback := true
  roundingExcess := 1

theorem split_conserves_halves :
    (split halves 3 2 (-5) (some "fallback")).outcome = .ok halvesOfThree ∧
      halvesOfThree.total + 0 = 3 ∧ halvesOfThree.burned = 0 ∧
      max 0 (-5) < halvesOfThree.remainder := by
  have h : (split halves 3 2 (-5) (some "fallback")).outcome = .ok halvesOfThree := by
    decide +kernel
  obtain ⟨_, _, _, _, htotal, hburned, hto⟩ := split_conserves h
  exact ⟨h, htotal, hburned, hto.mp rfl⟩

end DelayedPayout
