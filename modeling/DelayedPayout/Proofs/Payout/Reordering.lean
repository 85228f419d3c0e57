import DelayedPayout.Proofs.Payout.Outcome

/-!
The order of the candidates does not matter to a split. What each candidate comes to does not depend on
the others, the counts and the set of outputs do not depend on the order, and sorting is unique
(`Receiver.sort_eq_of_perm`). Only where a split is refused at a candidate does the order decide which
of its candidates refuses it. Main statement: `split_perm`.
-/

namespace DelayedPayout

open Number

variable {candidates candidates' : List Candidate} {spendable minOutput threshold : Int}
  {fallback : Option String} {p : Payout}

theorem skippedCount_perm (h : candidates'.Perm candidates) :
    skippedCount candidates' = skippedCount candidates :=
  h.countP_eq _

theorem dustCount_perm (h : candidates'.Perm candidates) :
    dustCount candidates' spendable minOutput = dustCount candidates spendable minOutput :=
  (h.filterMap _).countP_eq _

theorem keptOutputs_perm (h : candidates'.Perm candidates) :
    keptOutputs candidates' spendable minOutput = keptOutputs candidates spendable minOutput :=
  Receiver.sort_eq_of_perm ((h.filterMap _).filter _)

/-! ## Refusal at a candidate -/

/-- A split is refused at one of its candidates: the amounts are in order, but the share of some
candidate is no share, or the amount is too large to be multiplied by one. -/
def RefusedAtCandidate (candidates : List Candidate) (spendable minOutput : Int) : Prop :=
  0 ≤ spendable ∧ 0 ≤ minOutput ∧
    ∃ fault, candidates.mapM (Candidate.entitlement spendable minOutput) = .error fault

theorem RefusedAtCandidate.of_perm (h : candidates'.Perm candidates)
    (hr : RefusedAtCandidate candidates spendable minOutput) :
    RefusedAtCandidate candidates' spendable minOutput := by
  obtain ⟨hs, hm, fault, hf⟩ := hr
  refine ⟨hs, hm, ?_⟩
  cases hf' : candidates'.mapM (Candidate.entitlement spendable minOutput) with
  | error fault' => exact ⟨fault', rfl⟩
  | ok es' =>
    obtain ⟨es, hes, _⟩ := mapM_ok_of_perm h.symm hf'
    rw [hf] at hes
    cases hes

theorem refusedAtCandidate_perm (h : candidates'.Perm candidates) :
    RefusedAtCandidate candidates' spendable minOutput ↔
      RefusedAtCandidate candidates spendable minOutput :=
  ⟨RefusedAtCandidate.of_perm h.symm, RefusedAtCandidate.of_perm h⟩

theorem RefusedAtCandidate.ofCandidates_eq_error
    (h : RefusedAtCandidate candidates spendable minOutput) (threshold : Int) :
    ∃ fault, Draft.ofCandidates candidates spendable minOutput threshold = .error fault := by
  obtain ⟨hs, hm, fault, hf⟩ := h
  refine ⟨fault, Draft.ofCandidates_of_mapM_error hs hm ?_ hf⟩
  rintro rfl
  cases hf

/-! ## Drafts and splits -/

/-- Candidates in another order give the same draft or the same fault, unless a candidate is refused. -/
theorem Draft.ofCandidates_perm (threshold : Int) (h : candidates'.Perm candidates)
    (hnot : ¬ RefusedAtCandidate candidates spendable minOutput) :
    Draft.ofCandidates candidates' spendable minOutput threshold =
      Draft.ofCandidates candidates spendable minOutput threshold := by
  by_cases hs : spendable < 0
  · simp only [Draft.ofCandidates, hs, ↓reduceIte]
  by_cases hm : minOutput < 0
  · simp only [Draft.ofCandidates, hs, hm, ↓reduceIte]
  by_cases hne : candidates = []
  · rw [hne] at h ⊢
    rw [h.eq_nil]
  have hne' : candidates' ≠ [] := by
    intro hnil
    rw [hnil] at h
    exact hne h.symm.eq_nil
  rw [not_lt] at hs hm
  cases he : candidates.mapM (Candidate.entitlement spendable minOutput) with
  | error fault => exact (hnot ⟨hs, hm, fault, he⟩).elim
  | ok es =>
    obtain ⟨es', he', _⟩ := mapM_ok_of_perm h he
    rw [Draft.ofCandidates_of_mapM hs hm hne he, Draft.ofCandidates_of_mapM hs hm hne' he',
      skippedCount_perm h, dustCount_perm h, keptOutputs_perm h]

theorem split_of_ofCandidates_eq_error {fault : Fault} (fallback : Option String)
    (h : Draft.ofCandidates candidates spendable minOutput threshold = .error fault) :
    split candidates spendable minOutput threshold fallback = ⟨.error fault, 0⟩ := by
  rw [split, h]

theorem RefusedAtCandidate.split_eq (h : RefusedAtCandidate candidates spendable minOutput)
    (threshold : Int) (fallback : Option String) :
    ∃ fault, split candidates spendable minOutput threshold fallback = ⟨.error fault, 0⟩ := by
  obtain ⟨fault, hf⟩ := h.ofCandidates_eq_error threshold
  exact ⟨fault, split_of_ofCandidates_eq_error fallback hf⟩

theorem split_eq_of_perm (h : candidates'.Perm candidates)
    (hnot : ¬ RefusedAtCandidate candidates spendable minOutput) :
    split candidates' spendable minOutput threshold fallback =
      split candidates spendable minOutput threshold fallback := by
  rw [split, split, Draft.ofCandidates_perm threshold h hnot]

theorem split_of_perm (h : candidates'.Perm candidates)
    (hp : (split candidates spendable minOutput threshold fallback).outcome = .ok p) :
    (split candidates' spendable minOutput threshold fallback).outcome = .ok p := by
  by_cases hr : RefusedAtCandidate candidates spendable minOutput
  · obtain ⟨fault, hf⟩ := hr.split_eq threshold fallback
    rw [hf] at hp
    cases hp
  · rw [split_eq_of_perm h hr]
    exact hp

/-- Two splits end with the same payout, or both are refused. -/
def Split.EndsAs (s t : Split) : Prop :=
  (∃ p, s.outcome = .ok p ∧ t.outcome = .ok p) ∨
    ((∃ fault, s.outcome = .error fault) ∧ ∃ fault, t.outcome = .error fault)

theorem endsAs_of_perm (h : candidates'.Perm candidates) :
    (split candidates' spendable minOutput threshold fallback).EndsAs
      (split candidates spendable minOutput threshold fallback) := by
  cases hs : (split candidates spendable minOutput threshold fallback).outcome with
  | ok p => exact .inl ⟨p, split_of_perm h hs, hs⟩
  | error fault =>
    cases hs' : (split candidates' spendable minOutput threshold fallback).outcome with
    | error fault' => exact .inr ⟨⟨fault', hs'⟩, fault, hs⟩
    | ok p =>
      rw [split_of_perm h.symm hs'] at hs
      cases hs

theorem asked_split_of_perm (h : candidates'.Perm candidates) :
    (split candidates' spendable minOutput threshold fallback).asked =
      (split candidates spendable minOutput threshold fallback).asked := by
  by_cases hr : RefusedAtCandidate candidates spendable minOutput
  · obtain ⟨fault, hf⟩ := hr.split_eq threshold fallback
    obtain ⟨fault', hf'⟩ := (hr.of_perm h).split_eq threshold fallback
    rw [hf, hf']
  · rw [split_eq_of_perm h hr]

/-- **The order of the candidates does not matter.** In another order they are split with the same
payout, or refused again; the fallback address is asked for as often; a split is refused at a candidate
in every order or in none; and in none also the fault is the same. -/
theorem split_perm (spendable minOutput threshold : Int) (fallback : Option String)
    (h : candidates'.Perm candidates) :
    (split candidates' spendable minOutput threshold fallback).EndsAs
        (split candidates spendable minOutput threshold fallback) ∧
      (split candidates' spendable minOutput threshold fallback).asked =
        (split candidates spendable minOutput threshold fallback).asked ∧
      (RefusedAtCandidate candidates' spendable minOutput ↔
        RefusedAtCandidate candidates spendable minOutput) ∧
      (¬ RefusedAtCandidate candidates spendable minOutput →
        split candidates' spendable minOutput threshold fallback =
          split candidates spendable minOutput threshold fallback) :=
  ⟨endsAs_of_perm h, asked_split_of_perm h, refusedAtCandidate_perm h, split_eq_of_perm h⟩

/-- Two candidates with a half each and one address, one with a quarter, and one without an address. -/
def ties : List Candidate :=
  [⟨"first", .real (Binary64.ofBits 0x3fe0000000000000), some "x"⟩,
    ⟨"second", .real (Binary64.ofBits 0x3fd0000000000000), some "x"⟩,
    ⟨"third", .real (Binary64.ofBits 0x3fd0000000000000), some "x"⟩,
    ⟨"fourth", .int 1, some ""⟩]

/-- What three satoshis come to among them: of two, one and one satoshi the largest output is reduced to
one. -/
def tiesOfThree : Payout where
  receivers := [⟨1, "x"⟩, ⟨1, "x"⟩, ⟨1, "x"⟩]
  spendable := 3
  skipped := 1
  roundingExcess := 1

/-- The share of one candidate is no number, that of the other is too large. -/
def unfit : List Candidate := [⟨"first", .flag true, none⟩, ⟨"second", .int 2, some "x"⟩]

theorem split_perm_reverse :
    (split ties.reverse 3 1 0 none).outcome = .ok tiesOfThree ∧
      (split ties.reverse 3 1 0 none).asked = 0 ∧
      (∃ fault, (split unfit.reverse 3 1 0 none).outcome = .error fault) := by
  have hties : (split ties 3 1 0 none).outcome = .ok tiesOfThree := by decide +kernel
  have hunfit : (split unfit 3 1 0 none).outcome = .error (.shareNotANumber (.flag true)) := by
    decide +kernel
  obtain ⟨hsame, hasked, _, _⟩ := split_perm 3 1 0 none (List.reverse_perm ties)
  obtain ⟨hrefused, _, _, _⟩ := split_perm 3 1 0 none (List.reverse_perm unfit)
  refine ⟨?_, hasked.trans (by decide +kernel), ?_⟩
  · rcases hsame with ⟨p, hp, hp'⟩ | ⟨_, fault, hfault⟩
    · rw [hties] at hp'
      cases hp'
      exact hp
    · rw [hties] at hfault
      cases hfault
  · rcases hrefused with ⟨p, _, hp⟩ | ⟨hfault, _⟩
    · rw [hunfit] at hp
      cases hp
    · exact hfault

end DelayedPayout
