import DelayedPayout.Proofs.Payout.LongestPrefix
import DelayedPayout.Proofs.Payout.Reordering

/-!
Trimming as a loop, and when it ends after one pass. A pass takes the excess off the largest output or
drops it whole (`Trimmed.pass`), and passes go on while there are outputs and an excess (`Passes`); what they
end with is `trim` (`Passes.eq_trim`). The excess is no more than one satoshi an output, so an output
that is worth as many satoshis as there are outputs can always carry all of it. Main statement:
`split_touches_largest_only`.
-/

namespace DelayedPayout

open Receiver

/-! ## Passes -/

/-- Trimming goes on while there are outputs and an excess. -/
def Trimmed.Unfinished (t : Trimmed) : Prop := t.descending ≠ [] ∧ 0 < t.excess

/-- One pass: the largest output gives up the excess, or is dropped if it would be too small then. -/
def Trimmed.pass (minOutput : Int) (t : Trimmed) : Trimmed :=
  match t.descending with
  | [] => t
  | largest :: smaller =>
    if minOutput ≤ largest.amount - t.excess then
      ⟨insertDescending { largest with amount := largest.amount - t.excess } smaller, t.dropped, 0⟩
    else ⟨smaller, t.dropped + 1, t.excess - largest.amount⟩

/-- So many passes lead from one stage of trimming to another, at which it ends. -/
inductive Passes (minOutput : Int) : Nat → Trimmed → Trimmed → Prop
  | done {t : Trimmed} : ¬t.Unfinished → Passes minOutput 0 t t
  | pass {n : Nat} {t final : Trimmed} :
    t.Unfinished → Passes minOutput n (t.pass minOutput) final → Passes minOutput (n + 1) t final

variable {candidates : List Candidate} {spendable minOutput threshold excess : Int}
  {fallback : Option String} {p : Payout}

/-- What trimming makes of a stage that it has reached. -/
def Trimmed.finish (minOutput : Int) (t : Trimmed) : Trimmed :=
  { trim minOutput t.excess t.descending with
    dropped := t.dropped + (trim minOutput t.excess t.descending).dropped }

theorem Trimmed.finish_of_not_unfinished {t : Trimmed} (h : ¬t.Unfinished) :
    t.finish minOutput = t := by
  obtain ⟨l, dropped, excess⟩ := t
  cases l with
  | nil => rfl
  | cons largest smaller =>
    have hle : excess ≤ 0 := Int.not_lt.mp fun hlt => h ⟨List.cons_ne_nil _ _, hlt⟩
    simp only [finish, trim_of_nonpos hle, Nat.add_zero]

theorem Trimmed.finish_pass {t : Trimmed} (h : t.Unfinished) :
    (t.pass minOutput).finish minOutput = t.finish minOutput := by
  obtain ⟨l, dropped, excess⟩ := t
  obtain ⟨hne, hlt⟩ := h
  cases l with
  | nil => exact (hne rfl).elim
  | cons largest smaller =>
    have hnot : ¬excess ≤ 0 := Int.not_le.mpr hlt
    by_cases hm : minOutput ≤ largest.amount - excess
    · simp only [pass, finish, trim, if_pos hm, if_neg hnot, trim_of_nonpos (Int.le_refl 0)]
    · simp only [pass, finish, trim, if_neg hm, if_neg hnot, Trimmed.mk.injEq, true_and, and_true]
      omega

/-- The passes end with what `trim` finds, and with nothing else. -/
theorem Passes.eq_finish {n : Nat} {t final : Trimmed} (h : Passes minOutput n t final) :
    final = t.finish minOutput := by
  induction h with
  | done hnot => exact (Trimmed.finish_of_not_unfinished hnot).symm
  | pass hrun _ ih => rw [ih, Trimmed.finish_pass hrun]

theorem Passes.eq_trim {n : Nat} {l : List Receiver} {final : Trimmed}
    (h : Passes minOutput n ⟨l, 0, excess⟩ final) : final = trim minOutput excess l := by
  rw [h.eq_finish, Trimmed.finish, Nat.zero_add]

/-! ## One pass -/

/-- If the largest output can carry the excess, one pass is enough. -/
theorem passes_of_carries {largest : Receiver} {smaller : List Receiver} (hexcess : 0 < excess)
    (hcarries : excess ≤ largest.amount) :
    Passes minOutput 1 ⟨largest :: smaller, 0, excess⟩
      (Trimmed.pass minOutput ⟨largest :: smaller, 0, excess⟩) := by
  refine .pass ⟨List.cons_ne_nil _ _, hexcess⟩ (.done fun h => ?_)
  have hover := h.2
  simp only [Trimmed.pass] at hover
  split at hover
  · exact Int.lt_irrefl 0 hover
  · simp only at hover
    omega

/-- The largest output is that of one candidate, and the other outputs are those of the others. -/
theorem exists_candidate_of_largest {smaller : List Receiver} {largest : Receiver}
    (hkept : keptOutputs candidates spendable minOutput = smaller ++ [largest]) :
    ∃ c others, candidates.Perm (c :: others) ∧ c.due spendable = some largest ∧
      keptOutputs others spendable minOutput = smaller := by
  have hmem : largest ∈ keptOutputs candidates spendable minOutput := by simp [hkept]
  have hworth : minOutput ≤ largest.amount := mem_keptOutputs hmem
  rw [keptOutputs, mem_sort, List.mem_filter, List.mem_filterMap] at hmem
  obtain ⟨⟨c, hc, hdue⟩, _⟩ := hmem
  obtain ⟨before, after, rfl⟩ := List.append_of_mem hc
  have hperm : (before ++ c :: after).Perm (c :: (before ++ after)) := List.perm_middle
  refine ⟨c, before ++ after, hperm, hdue, ?_⟩
  -- without the largest output the rest stands in its order still
  have hordered : Ordered smaller :=
    (hkept ▸ ordered_keptOutputs).sublist (List.sublist_append_left smaller [largest])
  apply (ordered_sort _).eq_of_perm hordered
  have hall := sort_perm (((c :: (before ++ after)).filterMap (Candidate.due spendable)).filter
    (minOutput ≤ ·.amount))
  rw [← keptOutputs, ← keptOutputs_perm hperm, hkept, List.filterMap_cons_some hdue,
    List.filter_cons_of_pos (by simpa using hworth)] at hall
  exact (sort_perm _).trans ((List.perm_append_singleton _ _).symm.trans hall).cons_inv.symm

namespace PaysCandidates

variable {kept smaller : List Receiver} {largest : Receiver}
  (h : PaysCandidates candidates spendable minOutput threshold fallback p)
  (hkept : keptOutputs candidates spendable minOutput = kept) (hm : (kept.length : Int) ≤ minOutput)

include h hkept

theorem passes_trimmedOutputs {n : Nat} {final : Trimmed}
    (hpasses : Passes minOutput n ⟨kept.reverse, 0, total kept - spendable⟩ final) :
    p.candidateOutputs = final.descending.reverse := by
  rw [h.candidateOutputs_eq, trimmedOutputs, hkept, hpasses.eq_trim]

include hm

/-- An output that is large enough can carry what all of them exceed the amount by. -/
theorem roundingExcess_le_amount {r : Receiver} (hr : r ∈ kept) : p.roundingExcess ≤ r.amount := by
  subst hkept
  have hle := h.excess_le
  have hworth := mem_keptOutputs hr
  rw [h.roundingExcess_eq]
  omega

theorem largest_gives_up (hlast : kept = smaller ++ [largest]) (hexceeds : spendable < total kept) :
    Passes minOutput 1 ⟨kept.reverse, 0, total kept - spendable⟩
      (Trimmed.pass minOutput ⟨kept.reverse, 0, total kept - spendable⟩) ∧
    p.candidateOutputs =
      if minOutput ≤ largest.amount - p.roundingExcess then
        sort (smaller ++ [⟨largest.amount - p.roundingExcess, largest.address⟩])
      else smaller := by
  have hcarries : p.roundingExcess ≤ largest.amount :=
    h.roundingExcess_le_amount hkept hm (by rw [hlast]; simp)
  have hexcess : total kept - spendable = p.roundingExcess := by
    rw [h.roundingExcess_eq, hkept]
    omega
  have hreverse : kept.reverse = largest :: smaller.reverse := by simp [hlast]
  have hpasses : Passes minOutput 1 ⟨kept.reverse, 0, total kept - spendable⟩
      (Trimmed.pass minOutput ⟨kept.reverse, 0, total kept - spendable⟩) := by
    rw [hreverse, hexcess]
    exact passes_of_carries (by omega) hcarries
  refine ⟨hpasses, ?_⟩
  rw [h.passes_trimmedOutputs hkept hpasses, hreverse, hexcess]
  have hordered : Ordered smaller :=
    (hlast ▸ hkept ▸ ordered_keptOutputs).sublist (List.sublist_append_left smaller [largest])
  simp only [Trimmed.pass]
  split
  · exact reverse_insertDescending _ hordered
  · exact List.reverse_reverse smaller

end PaysCandidates

/-- **Rounding touches the largest output only**, if every output is worth as many satoshis as there are
outputs. Then the outputs exceed the amount by no more than their number, and trimming takes at most one
pass. Without an excess they stay as they were rounded. With one, a single candidate is paid less than it
is due, that with the largest output: it gets what the excess leaves of that if it is enough for an
output, and nothing otherwise; all the others get what they are due. -/
theorem split_touches_largest_only {kept : List Receiver} (hne : candidates ≠ [])
    (h : (split candidates spendable minOutput threshold fallback).outcome = .ok p)
    (hkept : keptOutputs candidates spendable minOutput = kept) (hm : (kept.length : Int) ≤ minOutput) :
    p.roundingExcess ≤ kept.length ∧
    (∃ n ≤ 1, ∃ final, Passes minOutput n ⟨kept.reverse, 0, total kept - spendable⟩ final ∧
      p.candidateOutputs = final.descending.reverse) ∧
    (p.roundingExcess = 0 → p.candidateOutputs = kept) ∧
    (p.roundingExcess ≠ 0 → ∃ c others largest, candidates.Perm (c :: others) ∧
      c.due spendable = some largest ∧
      kept = keptOutputs others spendable minOutput ++ [largest] ∧
      p.candidateOutputs =
        if minOutput ≤ largest.amount - p.roundingExcess then
          sort (keptOutputs others spendable minOutput ++
            [⟨largest.amount - p.roundingExcess, largest.address⟩])
        else keptOutputs others spendable minOutput) := by
  have hp := paysCandidates_of_split hne h
  have hle := hp.excess_le
  have hrounding := hp.roundingExcess_eq
  rw [hkept] at hle hrounding
  refine ⟨by omega, ?_⟩
  by_cases hfits : total kept ≤ spendable
  · obtain ⟨houtputs, hzero, _⟩ := hp.eq_of_total_le (by rw [hkept]; exact hfits)
    have hdone : Passes minOutput 0 ⟨kept.reverse, 0, total kept - spendable⟩
        ⟨kept.reverse, 0, total kept - spendable⟩ :=
      .done fun hrun => Int.not_lt.mpr hfits (Int.sub_pos.mp hrun.2)
    exact ⟨⟨0, Nat.zero_le 1, _, hdone, hp.passes_trimmedOutputs hkept hdone⟩,
      fun _ => houtputs.trans hkept, fun hnot => (hnot hzero).elim⟩
  · rcases List.eq_nil_or_concat' kept with hnil | ⟨smaller, largest, hlast⟩
    · rw [hnil] at hfits
      exact (hfits hp.spendable_nonneg).elim
    · obtain ⟨hpasses, houtputs⟩ := hp.largest_gives_up hkept hm hlast (Int.not_le.mp hfits)
      obtain ⟨c, others, hperm, hdue, rfl⟩ := exists_candidate_of_largest (hkept.trans hlast)
      refine ⟨⟨1, Nat.le_refl 1, _, hpasses, hp.passes_trimmedOutputs hkept hpasses⟩, by omega, ?_⟩
      exact fun _ => ⟨c, others, largest, hperm, hdue, hlast, houtputs⟩

/-- What the halves of five satoshis come to if two satoshis are enough for an output: both are rounded
up to three, and the larger one gives up the excess. -/
def halvesOfFive : Payout where
  receivers := [⟨2, "y"⟩, ⟨3, "x"⟩]
  spendable := 5
  roundingExcess := 1

/-- Of five satoshis the larger half gives up one; of three it is dropped, and takes the excess along. -/
theorem split_touches_larger_half :
    ((split halves 5 2 0 none).outcome = .ok halvesOfFive ∧
        keptOutputs halves 5 2 = [⟨3, "x"⟩, ⟨3, "y"⟩] ∧
        ∃ n ≤ 1, ∃ final, Passes 2 n ⟨[⟨3, "y"⟩, ⟨3, "x"⟩], 0, 1⟩ final ∧
          halvesOfFive.candidateOutputs = final.descending.reverse) ∧
      (split halves 3 2 (-5) (some "fallback")).outcome = .ok halvesOfThree ∧
        keptOutputs halves 3 2 = [⟨2, "x"⟩, ⟨2, "y"⟩] ∧
        ∃ c others largest, halves.Perm (c :: others) ∧ c.due 3 = some largest ∧
          [⟨2, "x"⟩, ⟨2, "y"⟩] = keptOutputs others 3 2 ++ [largest] ∧
          halvesOfThree.candidateOutputs =
            if 2 ≤ largest.amount - 1 then
              sort (keptOutputs others 3 2 ++ [⟨largest.amount - 1, largest.address⟩])
            else keptOutputs others 3 2 := by
  have hfive : (split halves 5 2 0 none).outcome = .ok halvesOfFive := by decide +kernel
  have hthree : (split halves 3 2 (-5) (some "fallback")).outcome = .ok halvesOfThree := by
    decide +kernel
  have hne : halves ≠ [] := List.cons_ne_nil _ _
  have hkept : keptOutputs halves 5 2 = [⟨3, "x"⟩, ⟨3, "y"⟩] := by decide +kernel
  have hkept' : keptOutputs halves 3 2 = [⟨2, "x"⟩, ⟨2, "y"⟩] := by decide +kernel
  obtain ⟨_, hpasses, _⟩ := split_touches_largest_only hne hfive hkept (by decide)
  obtain ⟨_, _, _, htouched⟩ := split_touches_largest_only hne hthree hkept' (by decide)
  exact ⟨⟨hfive, hkept, hpasses⟩, hthree, hkept', htouched (by decide)⟩

end DelayedPayout
