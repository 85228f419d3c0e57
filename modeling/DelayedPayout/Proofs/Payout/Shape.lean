import DelayedPayout.Proofs.Payout.Accounting
import DelayedPayout.Proofs.Payout.Refusal

/-!
The shape of a payout: the outputs of the candidates, in their order and each worth its place, and behind
them at most that of the fallback address. Every candidate is paid at most once, and the fallback address is
asked for exactly when it is to be paid (`split_shape`).
-/

namespace DelayedPayout

open Number Receiver

variable {candidates : List Candidate} {spendable minOutput threshold : Int}
  {fallback : Option String} {p : Payout} {fault : Fault}

/-! ## Addresses by code point -/

def Receiver.codePoints (r : Receiver) : List Nat := r.address.toList.map Char.toNat

theorem lt_iff_map_toNat_lt {l l' : List Char} :
    l < l' ↔ l.map Char.toNat < l'.map Char.toNat := by
  induction l generalizing l' with
  | nil => cases l' <;> simp
  | cons c l ih =>
    cases l' with
    | nil => simp
    | cons c' l' =>
      have hc : c < c' ↔ c.toNat < c'.toNat := Iff.rfl
      have heq : c = c' ↔ c.toNat = c'.toNat := Char.toNat_inj.symm
      simp only [List.map_cons, List.cons_lt_cons_iff, ih, hc, heq]

theorem Receiver.le_iff_codePoints {a b : Receiver} :
    le a b = true ↔ a.amount < b.amount ∨ a.amount = b.amount ∧ a.codePoints ≤ b.codePoints := by
  rw [le_iff, codePoints, codePoints, String.le_iff_toList_le, ← not_lt, lt_iff_map_toNat_lt, not_lt]

/-! ## Trimming -/

theorem pairwise_trim (minOutput excess : Int) {l : List Receiver}
    (h : l.Pairwise fun a b => le b a = true) :
    (trim minOutput excess l).descending.Pairwise fun a b => le b a = true := by
  induction l generalizing excess with
  | nil => exact h
  | cons r l ih =>
    have hl := (List.pairwise_cons.mp h).2
    rw [trim]
    split
    · exact h
    · split
      · exact insertDescending_pairwise _ hl
      · exact ih _ hl

theorem subperm_address_trim (minOutput excess : Int) (l : List Receiver) :
    ((trim minOutput excess l).descending.map Receiver.address).Subperm (l.map Receiver.address) := by
  induction l generalizing excess with
  | nil => exact List.Subperm.refl _
  | cons r l ih =>
    rw [trim]
    split
    · exact List.Subperm.refl _
    · split
      · exact ((insertDescending_perm _ l).map Receiver.address).subperm
      · exact (ih _).trans (List.sublist_cons_self _ _).subperm

/-! ## Addresses of candidates -/

theorem sublist_address_due (candidates : List Candidate) (spendable : Int) :
    ((candidates.filterMap (Candidate.due spendable)).map Receiver.address).Sublist
      (candidates.filterMap Candidate.payee?) := by
  induction candidates with
  | nil => exact List.Sublist.refl _
  | cons c candidates ih =>
    cases hp : c.payee? with
    | none => simpa [hp, Candidate.due_of_no_payee spendable hp] using ih
    | some address =>
      cases ha : c.amount spendable with
      | ok amount => simpa [hp, Candidate.due_of_payee hp ha] using ih
      | error fault =>
        have hdue : c.due spendable = none := by simp [Candidate.due, hp, ha, Except.toOption]
        simpa [hp, hdue] using ih.cons address

theorem subperm_address_keptOutputs (candidates : List Candidate) (spendable minOutput : Int) :
    ((keptOutputs candidates spendable minOutput).map Receiver.address).Subperm
      (candidates.filterMap Candidate.payee?) := by
  have hsort := ((sort_perm ((candidates.filterMap (Candidate.due spendable)).filter
    (minOutput ≤ ·.amount))).map Receiver.address).subperm
  have hfilter := (List.filter_sublist (p := fun r : Receiver => decide (minOutput ≤ r.amount))
    (l := candidates.filterMap (Candidate.due spendable))).map Receiver.address
  exact hsort.trans (hfilter.subperm.trans (sublist_address_due candidates spendable).subperm)

theorem Candidate.payee?_isNone_iff {c : Candidate} :
    c.payee?.isNone = true ↔ c.address = none ∨ c.address = some "" := by
  cases h : c.address <;> simp [Candidate.payee?, h, Option.filter]

/-! ## The outputs of the candidates -/

/-- What the outputs of the candidates are like in a payout, and how it accounts for the candidates. -/
structure Payout.HasBody (p : Payout) (candidates : List Candidate) (minOutput : Int)
    (body : List Receiver) : Prop where
  ordered : body.Pairwise fun a b =>
    a.amount < b.amount ∨ a.amount = b.amount ∧ a.codePoints ≤ b.codePoints
  worth : ∀ r ∈ body, minOutput ≤ r.amount
  /-- Every output is that of another candidate. -/
  addresses : (body.map Receiver.address).Subperm (candidates.filterMap Candidate.payee?)
  skipped_eq : p.skipped = candidates.countP fun c => c.address = none ∨ c.address = some ""
  accounted : (candidates.length : Int) = p.skipped + p.dust + body.length

theorem hasBody_of_split (hne : candidates ≠ [])
    (h : (split candidates spendable minOutput threshold fallback).outcome = .ok p) :
    p.HasBody candidates minOutput p.candidateOutputs := by
  have hp := paysCandidates_of_split hne h
  constructor
  · have hkept : (keptOutputs candidates spendable minOutput).reverse.Pairwise
        fun a b => le b a = true := List.pairwise_reverse.mpr (ordered_sort _)
    rw [hp.candidateOutputs_eq, List.pairwise_reverse]
    exact (pairwise_trim minOutput _ hkept).imp fun hle => le_iff_codePoints.mp hle
  · exact fun r hr => hp.minOutput_le_amount hr
  · rw [hp.candidateOutputs_eq, List.map_reverse]
    apply (List.reverse_perm _).subperm.trans
    apply (subperm_address_trim minOutput _ _).trans
    rw [List.map_reverse]
    exact (List.reverse_perm _).subperm.trans (subperm_address_keptOutputs _ _ _)
  · rw [hp.skipped_eq, skippedCount]
    congr 2
    funext c
    rw [Bool.eq_iff_iff, Candidate.payee?_isNone_iff, decide_eq_true_eq]
  · obtain ⟨skipped, dust, hskipped, hdust, hcount⟩ := split_accounts hne h
    omega

/-! ## The question for the fallback address -/

theorem Draft.remainderToFallback_of_settle {d : Draft} (h : (d.settle fallback).outcome = .ok p) :
    p.remainderToFallback = d.payout.remainderToFallback := by
  unfold Draft.settle at h
  cases hd : d.forFallback with
  | none =>
    simp only [hd, Draft.close_eq_ok_iff] at h
    rw [h.2]
  | some amount =>
    cases ha : fallback.filter (!·.isEmpty) with
    | none => simp [hd, ha] at h
    | some address =>
      simp only [hd, ha, Draft.close_eq_ok_iff] at h
      rw [← h.2]

/-- With an address a draft is settled, unless the closing line cannot be written. -/
theorem Draft.settle_of_ne_empty (d : Draft) {address : String} (h : address ≠ "") :
    if Reportable d.reported then ∃ p, (d.settle (some address)).outcome = .ok p
    else (d.settle (some address)).outcome = .error .tooManyDigits := by
  by_cases hreport : Reportable d.reported
  · rw [if_pos hreport]
    exact Draft.exists_settle_eq_ok h hreport
  · have hanswered : ¬Unanswered (some address) := by simpa [Unanswered] using h
    rw [if_neg hreport]
    refine Draft.settle_eq_error_iff.mpr (.inr ⟨fun _ hun => hanswered hun.1.2, ?_⟩)
    exact .inl ⟨hreport, rfl⟩

/-- A draft lacks the output of the fallback address if there are no candidates, or if it gets the
remainder. -/
theorem Draft.isSome_forFallback_iff {d : Draft}
    (h : Draft.ofCandidates candidates spendable minOutput threshold = .ok d) :
    d.forFallback.isSome = true ↔ candidates = [] ∨ d.payout.remainderToFallback = true := by
  by_cases hne : candidates = []
  · subst hne
    rw [(Draft.ofCandidates_nil_eq_ok h).2.2]
    simp [Draft.withoutCandidates]
  · obtain ⟨_, _, ho⟩ := Draft.ofCandidates_eq_ok hne h
    rw [(Draft.ofOutputs_eq_ok ho).2.1]
    cases d.payout.remainderToFallback <;> simp [hne]

theorem asked_split {d : Draft}
    (h : Draft.ofCandidates candidates spendable minOutput threshold = .ok d)
    (fallback : Option String) :
    (split candidates spendable minOutput threshold fallback).asked =
      if candidates = [] ∨ d.payout.remainderToFallback = true then 1 else 0 := by
  rw [split, h]
  simp only [Draft.asked_settle, Draft.isSome_forFallback_iff h]

/-- The fallback address is asked for once if it is to be paid, and not at all otherwise. -/
theorem asked_split_of_ok
    (h : (split candidates spendable minOutput threshold fallback).outcome = .ok p) :
    (split candidates spendable minOutput threshold fallback).asked =
      if candidates = [] ∨ p.remainderToFallback = true then 1 else 0 := by
  obtain ⟨d, hd, hp⟩ := split_eq_ok h
  rw [asked_split hd, Draft.remainderToFallback_of_settle hp]

theorem Draft.reportable_reported_iff {d : Draft}
    (h : Draft.ofCandidates candidates spendable minOutput threshold = .ok d) :
    Reportable d.reported ↔ candidates = [] ∨ Writable (leftover candidates spendable minOutput) := by
  by_cases hne : candidates = []
  · subst hne
    rw [(Draft.ofCandidates_nil_eq_ok h).2.2]
    simp [Draft.withoutCandidates]
  · rw [(Draft.leftover_of_ofCandidates hne h).1, reportable_singleton, or_iff_right hne]

/-- A refused split has asked for the fallback address if that is why it is refused, or if the closing
line fails after the answer. -/
theorem asked_split_of_error
    (h : (split candidates spendable minOutput threshold fallback).outcome = .error fault) :
    (split candidates spendable minOutput threshold fallback).asked =
      if fault = .noFallbackAddress ∨ fault = .tooManyDigits ∧
        max 0 threshold < leftover candidates spendable minOutput then 1 else 0 := by
  cases hd : Draft.ofCandidates candidates spendable minOutput threshold with
  | error reason =>
    have hreason := Draft.ofCandidates_eq_error hd
    rw [split, hd] at h ⊢
    cases h
    rw [if_neg]
    rintro (rfl | ⟨rfl, _⟩) <;> cases hreason
  | ok d =>
    have hsettle : (d.settle fallback).outcome = .error fault := by
      rw [split, hd] at h
      exact h
    rw [asked_split hd]
    rcases Draft.settle_eq_error hsettle with ⟨⟨hfor, _⟩, rfl⟩ | ⟨hreport, rfl⟩
    · rw [if_pos ((Draft.isSome_forFallback_iff hd).mp hfor), if_pos (.inl rfl)]
    · have hne : candidates ≠ [] :=
        fun hnil => hreport ((Draft.reportable_reported_iff hd).mpr (.inl hnil))
      simp [hne, (Draft.leftover_of_ofCandidates hne hd).2]

/-- With an address a split that was refused for want of one pays it, unless the leftover cannot be
written. -/
theorem split_of_noFallbackAddress {address : String} (hne : address ≠ "")
    (h : (split candidates spendable minOutput threshold fallback).outcome =
      .error .noFallbackAddress) :
    if candidates = [] ∨ Writable (leftover candidates spendable minOutput) then
      ∃ p, (split candidates spendable minOutput threshold (some address)).outcome = .ok p ∧
        (candidates = [] ∨ p.remainderToFallback = true)
    else (split candidates spendable minOutput threshold (some address)).outcome =
      .error .tooManyDigits := by
  cases hd : Draft.ofCandidates candidates spendable minOutput threshold with
  | error fault =>
    have hfault := Draft.ofCandidates_eq_error hd
    rw [split, hd] at h
    cases h
    cases hfault
  | ok d =>
    have hsettle := d.settle_of_ne_empty hne
    simp only [Draft.reportable_reported_iff hd] at hsettle
    rw [split, hd]
    split at hsettle
    case isFalse hnot => rwa [if_neg hnot]
    case isTrue hwritten =>
      obtain ⟨p, hp⟩ := hsettle
      have hasked := (asked_split_of_error h).trans (if_pos (.inl rfl))
      rw [asked_split hd] at hasked
      rw [if_pos hwritten]
      refine ⟨p, hp, ?_⟩
      rw [Draft.remainderToFallback_of_settle hp]
      by_contra hnot
      rw [if_neg hnot] at hasked
      cases hasked

/-- **The shape of a payout.** With candidates the receivers are outputs of these, ascending by amount
and then by address, no candidate twice and none below the least output, and behind them the remainder if
the fallback address gets it; every candidate is skipped, dropped or paid. Without candidates the fallback
address gets everything. It is asked for once if it is paid and never otherwise. A refused split has asked
for it at most once: if the answer is why it is refused, and any address would have been paid, or if it was
to be paid a leftover that cannot be written. -/
theorem split_shape (candidates : List Candidate) (spendable minOutput threshold : Int)
    (fallback : Option String) :
    (∀ p, (split candidates spendable minOutput threshold fallback).outcome = .ok p →
      (candidates ≠ [] → ∃ body tail, p.receivers = body ++ tail ∧
        p.HasBody candidates minOutput body ∧
        (p.remainderToFallback = false → tail = []) ∧
        (p.remainderToFallback = true →
          ∃ address, answered fallback address ∧ tail = [⟨p.remainder, address⟩])) ∧
      (candidates = [] → ∃ address, answered fallback address ∧
        p.receivers = [⟨spendable, address⟩] ∧ p.skipped = 0 ∧ p.dust = 0 ∧ p.remainder = 0 ∧
        p.roundingExcess = 0 ∧ p.remainderToFallback = false) ∧
      (split candidates spendable minOutput threshold fallback).asked =
        if candidates = [] ∨ p.remainderToFallback = true then 1 else 0) ∧
    (∀ fault, (split candidates spendable minOutput threshold fallback).outcome = .error fault →
      (split candidates spendable minOutput threshold fallback).asked ≤ 1 ∧
      ((split candidates spendable minOutput threshold fallback).asked = 1 ↔
        fault = .noFallbackAddress ∨ fault = .tooManyDigits ∧
          max 0 threshold < leftover candidates spendable minOutput) ∧
      (fault = .noFallbackAddress → ∀ address, address ≠ "" →
        if candidates = [] ∨ Writable (leftover candidates spendable minOutput) then
          ∃ p, (split candidates spendable minOutput threshold (some address)).outcome = .ok p ∧
            (candidates = [] ∨ p.remainderToFallback = true)
        else (split candidates spendable minOutput threshold (some address)).outcome =
          .error .tooManyDigits)) := by
  constructor
  · intro p h
    refine ⟨?_, ?_, asked_split_of_ok h⟩
    · intro hne
      obtain ⟨tail, hreceivers, hnot, hto⟩ := (paysCandidates_of_split hne h).receivers_eq
      exact ⟨p.candidateOutputs, tail, hreceivers, hasBody_of_split hne h, hnot, hto⟩
    · rintro rfl
      obtain ⟨_, _, address, ha, rfl⟩ := split_nil_eq_ok h
      exact ⟨address, ha, rfl, rfl, rfl, rfl, rfl, rfl⟩
  · intro fault h
    have hasked := asked_split_of_error h
    refine ⟨?_, ?_, ?_⟩
    · rw [hasked]
      split <;> omega
    · rw [hasked]
      by_cases hcond : fault = .noFallbackAddress ∨ fault = .tooManyDigits ∧
          max 0 threshold < leftover candidates spendable minOutput
      · exact iff_of_true (if_pos hcond) hcond
      · rw [if_neg hcond]
        exact iff_of_false Nat.zero_ne_one hcond
    · rintro rfl address hne
      exact split_of_noFallbackAddress hne h

/-- One of the halves of three satoshis is paid, one is dropped, and one satoshi goes to the fallback
address, if there is one. -/
theorem split_shape_halves :
    (∃ body, halvesOfThree.receivers = body ++ [⟨1, "fallback"⟩] ∧
        halvesOfThree.HasBody halves 2 body) ∧
      (split halves 3 2 (-5) (some "fallback")).asked = 1 ∧
      (split halves 3 2 (-5) (some "")).asked = 1 := by
  have hp : (split halves 3 2 (-5) (some "fallback")).outcome = .ok halvesOfThree := by
    decide +kernel
  have hf : (split halves 3 2 (-5) (some "")).outcome = .error .noFallbackAddress := by
    decide +kernel
  obtain ⟨hbody, _, hasked⟩ := (split_shape halves 3 2 (-5) (some "fallback")).1 _ hp
  obtain ⟨body, tail, hreceivers, hshape, _, hto⟩ := hbody (List.cons_ne_nil _ _)
  obtain ⟨address, ⟨haddress, _⟩, rfl⟩ := hto rfl
  cases haddress
  exact ⟨⟨body, hreceivers, hshape⟩, hasked.trans (by decide),
    ((split_shape halves 3 2 (-5) (some "")).2 _ hf).2.1.mpr (.inl rfl)⟩

end DelayedPayout
