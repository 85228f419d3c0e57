import DelayedPayout.Proofs.Payout.Conservation

/-!
The outputs of a split without the loop that trims them: of the kept outputs in their order the longest
prefix that fits the amount stays, and what is left of the amount goes onto the next output if that
is enough for one (`PaysCandidates.eq_of_rest_ge`, `PaysCandidates.eq_of_rest_lt`).
-/

namespace DelayedPayout

open Receiver

variable {candidates : List Candidate} {spendable minOutput threshold : Int}
  {fallback : Option String} {p : Payout}

theorem ordered_keptOutputs : Ordered (keptOutputs candidates spendable minOutput) :=
  ordered_sort _

theorem trimmedOutputs_of_le
    (h : total (keptOutputs candidates spendable minOutput) ≤ spendable) :
    trimmedOutputs candidates spendable minOutput =
      ⟨(keptOutputs candidates spendable minOutput).reverse, 0,
        total (keptOutputs candidates spendable minOutput) - spendable⟩ :=
  trim_of_nonpos (by omega) _

namespace PaysCandidates

variable (h : PaysCandidates candidates spendable minOutput threshold fallback p)

include h

theorem amount_nonneg_of_mem_kept :
    ∀ r ∈ keptOutputs candidates spendable minOutput, 0 ≤ r.amount :=
  fun _ hr => Int.le_trans h.minOutput_nonneg (mem_keptOutputs hr)

/-- Outputs that fit the amount together stay as they are. -/
theorem eq_of_total_le (hle : total (keptOutputs candidates spendable minOutput) ≤ spendable) :
    p.candidateOutputs = keptOutputs candidates spendable minOutput ∧ p.roundingExcess = 0 ∧
      p.remainder = spendable - total (keptOutputs candidates spendable minOutput) ∧
      p.dust = dustCount candidates spendable minOutput := by
  have ht := trimmedOutputs_of_le hle
  refine ⟨?_, ?_, ?_, ?_⟩
  · rw [h.candidateOutputs_eq, ht, List.reverse_reverse]
  · rw [h.roundingExcess_eq]
    omega
  · rw [h.remainder_eq, ht]
    simp only
    omega
  · rw [h.dust_eq, ht]
    simp

section Exceeding

variable {kept : List Receiver} {n : Nat}
  (hk : keptOutputs candidates spendable minOutput = kept) (hn : fitting spendable kept = n)
  (hlt : n < kept.length)

include hk hn

theorem trimmedOutputs_of_lt : trimmedOutputs candidates spendable minOutput =
    if minOutput ≤ spendable - total (kept.take n) then
      ⟨insertDescending ⟨spendable - total (kept.take n), kept[n].address⟩ (kept.take n).reverse,
        kept.length - n - 1, 0⟩
    else ⟨(kept.take n).reverse, kept.length - n, total (kept.take n) - spendable⟩ := by
  subst hk hn
  exact trim_reverse_of_fitting_lt h.minOutput_nonneg h.spendable_nonneg
    h.amount_nonneg_of_mem_kept hlt

/-- The next output gets the rest of the amount if that is enough. -/
theorem eq_of_rest_ge (hrest : minOutput ≤ spendable - total (kept.take n)) :
    p.candidateOutputs =
        sort (kept.take n ++ [⟨spendable - total (kept.take n), kept[n].address⟩]) ∧
      p.remainder = 0 ∧
      p.dust = dustCount candidates spendable minOutput + (kept.length - n - 1 : Nat) := by
  have ht := h.trimmedOutputs_of_lt hk hn hlt
  rw [if_pos hrest] at ht
  have hord : Ordered (kept.take n) := (hk ▸ ordered_keptOutputs).sublist (List.take_sublist n kept)
  refine ⟨?_, ?_, ?_⟩
  · rw [h.candidateOutputs_eq, ht, reverse_insertDescending _ hord]
  · rw [h.remainder_eq, ht]
    rfl
  · rw [h.dust_eq, ht]

include hlt in
/-- Otherwise the next output is dropped with all larger ones, and the rest of the amount is left. -/
theorem eq_of_rest_lt (hrest : spendable - total (kept.take n) < minOutput) :
    p.candidateOutputs = kept.take n ∧ p.remainder = spendable - total (kept.take n) ∧
      p.dust = dustCount candidates spendable minOutput + (kept.length - n : Nat) := by
  have ht := h.trimmedOutputs_of_lt hk hn hlt
  rw [if_neg (Int.not_le.mpr hrest)] at ht
  refine ⟨?_, ?_, ?_⟩
  · rw [h.candidateOutputs_eq, ht, List.reverse_reverse]
  · rw [h.remainder_eq, ht]
    simp only
    omega
  · rw [h.dust_eq, ht]

end Exceeding

end PaysCandidates

/-- **The longest prefix that fits.** If the kept outputs exceed the amount, the first `n` of them stay,
where `n` is the greatest number that fits; the next output gets what is left of the amount, unless
that is too small for an output. -/
theorem split_eq_longest_prefix (hne : candidates ≠ [])
    (h : (split candidates spendable minOutput threshold fallback).outcome = .ok p) :
    let kept := keptOutputs candidates spendable minOutput
    let n := fitting spendable kept
    let rest := spendable - total (kept.take n)
    let dust : Int := dustCount candidates spendable minOutput
    (total kept ≤ spendable →
      p.candidateOutputs = kept ∧ p.roundingExcess = 0 ∧
        p.remainder = spendable - total kept ∧ p.dust = dust) ∧
    (spendable < total kept →
      p.roundingExcess = total kept - spendable ∧ p.roundingExcess ≤ kept.length ∧
        ∃ _ : n < kept.length,
          (minOutput ≤ rest →
            p.candidateOutputs = sort (kept.take n ++ [⟨rest, kept[n].address⟩]) ∧
              p.remainder = 0 ∧ p.dust = dust + (kept.length - n - 1 : Nat)) ∧
          (rest < minOutput →
            p.candidateOutputs = kept.take n ∧ p.remainder = rest ∧
              p.dust = dust + (kept.length - n : Nat))) := by
  intro kept n rest dust
  have hp := paysCandidates_of_split hne h
  constructor
  · exact hp.eq_of_total_le
  · intro hlt
    have hexcess : p.roundingExcess = total kept - spendable :=
      hp.roundingExcess_eq.trans (max_eq_right (Int.sub_nonneg.mpr (Int.le_of_lt hlt)))
    have hn : n < kept.length := fitting_lt hp.spendable_nonneg hlt
    exact ⟨hexcess, hexcess ▸ hp.excess_le, hn, hp.eq_of_rest_ge rfl rfl hn,
      hp.eq_of_rest_lt rfl rfl hn⟩

/-- A candidate with a half and two with a quarter each. -/
def quarters : List Candidate :=
  [⟨"first", .real (Number.Binary64.ofBits 0x3fe0000000000000), some "z"⟩,
    ⟨"second", .real (Number.Binary64.ofBits 0x3fd0000000000000), some "y"⟩,
    ⟨"third", .real (Number.Binary64.ofBits 0x3fd0000000000000), some "x"⟩]

/-- What two satoshis come to among them if every output is large enough: each gets one, and the last
one in the order gives it up again. -/
def quartersOfTwo : Payout where
  receivers := [⟨0, "z"⟩, ⟨1, "x"⟩, ⟨1, "y"⟩]
  spendable := 2
  roundingExcess := 1

theorem split_eq_longest_prefix_quarters :
    quarters ≠ [] ∧ (split quarters 2 0 0 none).outcome = .ok quartersOfTwo ∧
      2 < total (keptOutputs quarters 2 0) ∧ fitting 2 (keptOutputs quarters 2 0) = 2 ∧
      quartersOfTwo.candidateOutputs = sort ([⟨1, "x"⟩, ⟨1, "y"⟩] ++ [⟨2 - 2, "z"⟩]) ∧
      quartersOfTwo.dust = 0 + (3 - 2 - 1 : Nat) := by
  have hne : quarters ≠ [] := by decide
  have h : (split quarters 2 0 0 none).outcome = .ok quartersOfTwo := by decide +kernel
  have hlt : 2 < total (keptOutputs quarters 2 0) := by decide +kernel
  obtain ⟨_, hexceeds⟩ := split_eq_longest_prefix hne h
  obtain ⟨_, _, _, hge, _⟩ := hexceeds hlt
  obtain ⟨houtputs, _, hdust⟩ := hge (by decide +kernel)
  exact ⟨hne, h, hlt, by decide +kernel, houtputs.trans (by decide +kernel +revert),
    hdust.trans (by decide +kernel)⟩

end DelayedPayout
