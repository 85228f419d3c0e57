import DelayedPayout.Proofs.Payout.Outcome

/-!
Why a split is refused. An amount or a share is at fault, or the fallback address is missing when it is
asked for, or the closing line cannot be written (`split_eq_error`).
-/

namespace DelayedPayout

open Number

variable {candidates : List Candidate} {spendable minOutput threshold : Int}
  {fallback : Option String} {fault : Fault}

/-- The refusals of amounts and shares. -/
def Fault.isOfArguments : Fault → Bool
  | .negativeSpendable _ | .negativeMinOutput _ | .shareNotANumber _ | .shareOutOfRange _
  | .integerTooLarge | .notFinite _ | .sharesExceedWhole _ => true
  | _ => false

theorem Scalar.toShare_eq_error {s : Scalar} (h : s.toShare = .error fault) :
    fault.isOfArguments = true := by
  unfold Scalar.toShare at h
  split at h
  · split at h
    · cases h
      rfl
    · split at h <;> cases h
      rfl
  · split at h <;> cases h
    rfl
  · cases h
    rfl
  · cases h
    rfl

theorem wholeNumber_eq_error {x : Binary64} (h : wholeNumber x = .error fault) :
    fault.isOfArguments = true := by
  unfold wholeNumber at h
  split at h <;> cases h
  rfl

theorem Candidate.entitlement_eq_error {c : Candidate}
    (h : c.entitlement spendable minOutput = .error fault) : fault.isOfArguments = true := by
  unfold Candidate.entitlement at h
  rcases bind_eq_error h with hs | ⟨share, _, h⟩
  · exact Scalar.toShare_eq_error hs
  split at h
  · cases h
  split at h
  · cases h
    rfl
  · rcases bind_eq_error h with hw | ⟨amount, _, h⟩
    · exact wholeNumber_eq_error hw
    · cases h

/-- A draft is refused for its arguments only. -/
theorem Draft.ofCandidates_eq_error
    (h : Draft.ofCandidates candidates spendable minOutput threshold = .error fault) :
    fault.isOfArguments = true := by
  unfold Draft.ofCandidates at h
  split at h
  · cases h
    rfl
  split at h
  · cases h
    rfl
  split at h
  · cases h
  rcases bind_eq_error h with he | ⟨es, _, h⟩
  · obtain ⟨c, _, hc⟩ := exists_mem_of_mapM_eq_error he
    exact Candidate.entitlement_eq_error hc
  · unfold Draft.ofOutputs at h
    simp only at h
    split at h <;> cases h
    rfl

/-- Settling asks for the fallback address exactly when a draft lacks its output. -/
theorem Draft.asked_settle (d : Draft) (fallback : Option String) :
    (d.settle fallback).asked = if d.forFallback.isSome then 1 else 0 := by
  unfold Draft.settle
  cases d.forFallback with
  | none => rfl
  | some amount => cases fallback.filter (!·.isEmpty) <;> rfl

theorem split_eq_error
    (h : (split candidates spendable minOutput threshold fallback).outcome = .error fault) :
    fault.isOfArguments = true ∨ fault = .noFallbackAddress ∨ fault = .tooManyDigits := by
  unfold split at h
  cases hd : Draft.ofCandidates candidates spendable minOutput threshold with
  | error f =>
    simp only [hd, Except.error.injEq] at h
    exact .inl (h ▸ Draft.ofCandidates_eq_error hd)
  | ok d =>
    simp only [hd] at h
    exact .inr ((Draft.settle_eq_error h).imp And.right And.right)

end DelayedPayout
