import DelayedPayout.Proofs.Payout.Conservation

/-!
Every candidate is accounted for: it is skipped, or its output is dropped, or it is paid
(`split_accounts`). So a payout has at most one output more than there are candidates, and it has one
more exactly if all of them are paid and the fallback address is paid too
(`length_receivers_le_iff`).
-/

namespace DelayedPayout

variable {candidates : List Candidate} {spendable minOutput threshold : Int}
  {fallback : Option String} {p : Payout}

/-- Trimming keeps or drops every output. -/
theorem length_trim (minOutput excess : Int) (l : List Receiver) :
    (trim minOutput excess l).descending.length + (trim minOutput excess l).dropped = l.length := by
  induction l generalizing excess with
  | nil => rfl
  | cons r l ih =>
    rw [trim]
    split
    · rfl
    · split
      · exact (Receiver.insertDescending_perm _ l).length_eq
      · have := ih (excess - r.amount)
        simp only [List.length_cons]
        omega

/-- Every entitlement is of one of three kinds. -/
theorem count_entitlements (es : List Entitlement) :
    es.count .unaddressed + es.count .dust + (es.filterMap Entitlement.receiver?).length =
      es.length := by
  induction es with
  | nil => rfl
  | cons e es ih =>
    cases e with
    | unaddressed | dust =>
      simp [List.filterMap_cons, Entitlement.receiver?]
      omega
    | output r =>
      simp [Entitlement.receiver?]
      omega

theorem mapM_of_split (hne : candidates ≠ [])
    (h : (split candidates spendable minOutput threshold fallback).outcome = .ok p) :
    ∃ es, candidates.mapM (Candidate.entitlement spendable minOutput) = .ok es := by
  obtain ⟨d, hd, _⟩ := split_eq_ok h
  obtain ⟨hs, hm, _⟩ := Draft.ofCandidates_eq_ok hne hd
  cases he : candidates.mapM (Candidate.entitlement spendable minOutput) with
  | ok es => exact ⟨es, rfl⟩
  | error fault =>
    rw [Draft.ofCandidates_of_mapM_error hs hm hne he] at hd
    cases hd

/-- Before trimming, a candidate without an address is skipped, a small output is dropped, and all
others are kept. -/
theorem length_keptOutputs {es : List Entitlement}
    (h : candidates.mapM (Candidate.entitlement spendable minOutput) = .ok es) :
    skippedCount candidates + dustCount candidates spendable minOutput +
      (keptOutputs candidates spendable minOutput).length = candidates.length := by
  have hlen : candidates.length = es.length := (mapM_eq_ok_iff.mp h).length_eq
  have hcount := count_entitlements es
  rw [count_unaddressed h, count_dust h, filterMap_receiver h] at hcount
  rw [keptOutputs, (Receiver.sort_perm _).length_eq]
  omega

/-- Every candidate is skipped, dropped or paid. -/
theorem split_accounts (hne : candidates ≠ [])
    (h : (split candidates spendable minOutput threshold fallback).outcome = .ok p) :
    ∃ skipped dust : Nat, p.skipped = skipped ∧ p.dust = dust ∧
      skipped + dust + p.candidateOutputs.length = candidates.length := by
  have hp := paysCandidates_of_split hne h
  obtain ⟨es, hes⟩ := mapM_of_split hne h
  have hkept := length_keptOutputs hes
  have htrim := length_trim minOutput
    (Receiver.total (keptOutputs candidates spendable minOutput) - spendable)
    (keptOutputs candidates spendable minOutput).reverse
  rw [List.length_reverse, ← trimmedOutputs] at htrim
  refine ⟨_, _, hp.skipped_eq, hp.dust_eq, ?_⟩
  rw [hp.candidateOutputs_eq, List.length_reverse]
  omega

theorem PaysCandidates.length_receivers
    (h : PaysCandidates candidates spendable minOutput threshold fallback p) :
    p.receivers.length = p.candidateOutputs.length + p.remainderToFallback.toNat := by
  obtain ⟨tail, hr, hnot, hto⟩ := h.receivers_eq
  rw [hr, List.length_append]
  cases ht : p.remainderToFallback with
  | false => rw [hnot ht]; rfl
  | true =>
    obtain ⟨address, _, rfl⟩ := hto ht
    rfl

theorem length_receivers_le_succ (hne : candidates ≠ [])
    (h : (split candidates spendable minOutput threshold fallback).outcome = .ok p) :
    p.receivers.length ≤ candidates.length + 1 := by
  obtain ⟨skipped, dust, _, _, hcount⟩ := split_accounts hne h
  have hlen := (paysCandidates_of_split hne h).length_receivers
  have := p.remainderToFallback.toNat_le
  omega

/-- All candidates are paid, and the fallback address too. -/
def Payout.PaysAll (p : Payout) : Prop :=
  p.remainderToFallback = true ∧ p.skipped = 0 ∧ p.dust = 0

instance : DecidablePred Payout.PaysAll := fun p =>
  inferInstanceAs (Decidable (p.remainderToFallback = true ∧ p.skipped = 0 ∧ p.dust = 0))

/-- There are no more outputs than candidates, unless all candidates and the fallback address are
paid. -/
theorem length_receivers_le_iff (hne : candidates ≠ [])
    (h : (split candidates spendable minOutput threshold fallback).outcome = .ok p) :
    p.receivers.length ≤ candidates.length ↔ ¬p.PaysAll := by
  obtain ⟨skipped, dust, hskipped, hdust, hcount⟩ := split_accounts hne h
  have hlen := (paysCandidates_of_split hne h).length_receivers
  unfold Payout.PaysAll
  cases ht : p.remainderToFallback with
  | false =>
    rw [ht, Bool.toNat_false] at hlen
    simp only [Bool.false_eq_true, false_and, not_false_eq_true, iff_true]
    omega
  | true =>
    rw [ht, Bool.toNat_true] at hlen
    simp only [true_and]
    omega

end DelayedPayout
