import DelayedPayout.Proofs.Receiver.Order
import Mathlib.Data.List.Induction
import Mathlib.Data.Nat.Find

/-!
Trimming, as a balance and in closed form. `total_trim` and `excess_trim_nonpos` say that no satoshi is
lost or made up on the way; `trim_reverse_of_fitting_lt` says that what is left is the longest prefix
of the ascending outputs that fits the amount, with the rest of the amount on the next output if that
is enough for one.
-/

namespace DelayedPayout

open Receiver

variable {minOutput excess spendable : Int}

/-! ## The balance -/

/-- The outputs give up exactly the excess that is gone. -/
theorem total_trim (minOutput excess : Int) (l : List Receiver) :
    total (trim minOutput excess l).descending =
      total l - excess + (trim minOutput excess l).excess := by
  induction l generalizing excess with
  | nil =>
    simp only [trim, total_nil]
    omega
  | cons r l ih =>
    rw [trim]
    split
    · simp
    · split
      · rw [total_eq_of_perm (insertDescending_perm _ _)]
        simp only [total_cons]
        omega
      · simp only [ih, total_cons]
        omega

/-- Nothing is left to give up, unless there was more to give up than there is. -/
theorem excess_trim_nonpos {l : List Receiver} (h : excess ≤ total l) :
    (trim minOutput excess l).excess ≤ 0 := by
  induction l generalizing excess with
  | nil => simpa [trim] using h
  | cons r l ih =>
    rw [total_cons] at h
    rw [trim]
    split
    · assumption
    · split
      · exact Int.le_refl 0
      · exact ih (by omega)

/-- Trimming leaves no output below a bound that all outputs and the least output keep. -/
theorem le_amount_of_mem_trim {bound : Int} {l : List Receiver} (hb : bound ≤ minOutput)
    (hl : ∀ r ∈ l, bound ≤ r.amount) :
    ∀ r ∈ (trim minOutput excess l).descending, bound ≤ r.amount := by
  induction l generalizing excess with
  | nil => simp [trim]
  | cons s l ih =>
    have hs : ∀ r ∈ l, bound ≤ r.amount := fun r hr => hl r (List.mem_cons_of_mem s hr)
    rw [trim]
    split
    · exact hl
    · split
      · intro r hr
        rcases List.mem_cons.mp ((insertDescending_perm _ l).mem_iff.mp hr) with rfl | hr
        · simp only
          omega
        · exact hs r hr
      · exact ih hs

/-! ## The longest prefix that fits -/

/-- How many of the first outputs fit an amount together. -/
def fitting (spendable : Int) (l : List Receiver) : Nat :=
  Nat.findGreatest (fun n => total (l.take n) ≤ spendable) l.length

theorem fitting_le (spendable : Int) (l : List Receiver) : fitting spendable l ≤ l.length :=
  Nat.findGreatest_le _

theorem total_take_fitting (hs : 0 ≤ spendable) (l : List Receiver) :
    total (l.take (fitting spendable l)) ≤ spendable :=
  Nat.findGreatest_spec (P := fun n => total (l.take n) ≤ spendable) (Nat.zero_le _) (by simpa)

theorem lt_total_take {l : List Receiver} {n : Nat} (hn : fitting spendable l < n)
    (hl : n ≤ l.length) : spendable < total (l.take n) :=
  Int.not_le.mp (Nat.findGreatest_is_greatest hn hl)

theorem fitting_lt {l : List Receiver} (hs : 0 ≤ spendable) (h : spendable < total l) :
    fitting spendable l < l.length := by
  have hne : fitting spendable l ≠ l.length := by
    intro he
    have := total_take_fitting hs l
    rw [he, List.take_length] at this
    omega
  have := fitting_le spendable l
  omega

theorem trim_of_nonpos (h : excess ≤ 0) (l : List Receiver) :
    trim minOutput excess l = ⟨l, 0, excess⟩ := by
  cases l with
  | nil => rfl
  | cons r l => rw [trim, if_pos h]

/-- Outputs `before`, that fit, one output `r` that does not fit any more, and outputs `after`: all of
`after` are dropped, and `r` gets what is left if that is enough. -/
theorem trim_reverse_append {before after : List Receiver} {r : Receiver} (hm : 0 ≤ minOutput)
    (hb : total before ≤ spendable) (hr : spendable < total before + r.amount)
    (ha : ∀ s ∈ after, 0 ≤ s.amount) :
    trim minOutput (total (before ++ r :: after) - spendable) (before ++ r :: after).reverse =
      if minOutput ≤ spendable - total before then
        ⟨insertDescending ⟨spendable - total before, r.address⟩ before.reverse, after.length, 0⟩
      else ⟨before.reverse, after.length + 1, total before - spendable⟩ := by
  -- The outputs go from the largest down, so the induction takes `after` from its end.
  induction after using List.reverseRecOn with
  | nil =>
    simp only [List.reverse_append, List.reverse_cons, List.reverse_nil, List.nil_append,
      List.singleton_append, total_append, total_cons, total_nil, List.length_nil]
    rw [trim, if_neg (by omega)]
    have hrest : r.amount - (total before + (r.amount + 0) - spendable) =
        spendable - total before := by omega
    have hover : total before + (r.amount + 0) - spendable - r.amount =
        total before - spendable := by omega
    rw [hrest, hover]
    split
    · rfl
    · rw [trim_of_nonpos (by omega)]
  | append_singleton after s ih =>
    have hs : 0 ≤ s.amount := ha s (by simp)
    have ha' : ∀ t ∈ after, 0 ≤ t.amount := fun t ht => ha t (by simp [ht])
    have hafter : 0 ≤ total after := total_nonneg ha'
    have hsplit : (before ++ r :: (after ++ [s])).reverse = s :: (before ++ r :: after).reverse := by
      simp
    have htotal : total (before ++ r :: (after ++ [s])) =
        total before + r.amount + total after + s.amount := by
      simp only [total_append, total_cons, total_nil]
      omega
    have hrest : total before + r.amount + total after + s.amount - spendable - s.amount =
        total (before ++ r :: after) - spendable := by
      simp only [total_append, total_cons]
      omega
    rw [hsplit, htotal, trim, if_neg (by omega), if_neg (by omega), hrest, ih ha']
    split <;> simp

/-- **Trimming in closed form.** What is left of ascending outputs that exceed the amount is the
longest prefix that fits; the next output gets what is left of the amount if that is enough, and all
others are dropped. -/
theorem trim_reverse_of_fitting_lt {l : List Receiver} (hm : 0 ≤ minOutput) (hs : 0 ≤ spendable)
    (hl : ∀ r ∈ l, 0 ≤ r.amount) (hn : fitting spendable l < l.length) :
    trim minOutput (total l - spendable) l.reverse =
      if minOutput ≤ spendable - total (l.take (fitting spendable l)) then
        ⟨insertDescending
            ⟨spendable - total (l.take (fitting spendable l)), l[fitting spendable l].address⟩
            (l.take (fitting spendable l)).reverse,
          l.length - fitting spendable l - 1, 0⟩
      else
        ⟨(l.take (fitting spendable l)).reverse, l.length - fitting spendable l,
          total (l.take (fitting spendable l)) - spendable⟩ := by
  generalize hk : fitting spendable l = k at hn ⊢
  have hfit : total (l.take k) ≤ spendable := hk ▸ total_take_fitting hs l
  have hnext : spendable < total (l.take (k + 1)) := lt_total_take (by omega) (by omega)
  rw [List.take_succ_eq_append_getElem hn] at hnext
  simp only [total_append, total_cons, total_nil] at hnext
  have hparts : l.take k ++ l[k] :: l.drop (k + 1) = l := by
    rw [← List.drop_eq_getElem_cons hn, List.take_append_drop]
  have hafter : ∀ s ∈ l.drop (k + 1), 0 ≤ s.amount := fun s hs => hl s (List.mem_of_mem_drop hs)
  have hlen : (l.drop (k + 1)).length = l.length - k - 1 := by
    rw [List.length_drop]
    omega
  have hlen' : l.length - k - 1 + 1 = l.length - k := by omega
  have hr : spendable < total (l.take k) + l[k].amount := by omega
  have := trim_reverse_append hm hfit hr hafter
  rwa [hparts, hlen, hlen'] at this

end DelayedPayout
