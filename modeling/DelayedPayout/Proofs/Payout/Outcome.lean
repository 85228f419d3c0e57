import DelayedPayout.Proofs.Payout.Due

/-!
The outcome of a split, read off once for all later statements: `PaysCandidates` lists what a successful
split with candidates says about its payout (`paysCandidates_of_split`), and `split_nil_eq_ok` what one
without candidates says.
-/

namespace DelayedPayout

open Number

variable {candidates : List Candidate} {spendable minOutput threshold : Int}
  {fallback : Option String} {p : Payout}

/-- What trimming leaves of the kept outputs. -/
def trimmedOutputs (candidates : List Candidate) (spendable minOutput : Int) : Trimmed :=
  trim minOutput (Receiver.total (keptOutputs candidates spendable minOutput) - spendable)
    (keptOutputs candidates spendable minOutput).reverse

/-- The outputs of the candidates: all but an appended output of the fallback address. -/
def Payout.candidateOutputs (p : Payout) : List Receiver :=
  if p.remainderToFallback then p.receivers.dropLast else p.receivers

/-- The address that an answer gives: one that is there and not empty. -/
def answered (fallback : Option String) (address : String) : Prop :=
  fallback = some address ∧ address ≠ ""

theorem answered_iff {address : String} :
    fallback.filter (!·.isEmpty) = some address ↔ answered fallback address := by
  cases fallback <;> simp [answered, Option.filter_eq_some_iff]

/-- An answer without an address. -/
def Unanswered (fallback : Option String) : Prop := fallback = none ∨ fallback = some ""

theorem filter_eq_none_iff_unanswered :
    fallback.filter (!·.isEmpty) = none ↔ Unanswered fallback := by
  cases fallback <;> simp [Unanswered]

theorem not_answered_of_unanswered (hun : Unanswered fallback) (address : String) :
    ¬answered fallback address := by
  rw [← answered_iff, filter_eq_none_iff_unanswered.mpr hun]
  nofun

/-! ## Drafts -/

theorem Draft.ofCandidates_nil (hs : 0 ≤ spendable) (hm : 0 ≤ minOutput) :
    Draft.ofCandidates [] spendable minOutput threshold = .ok (.withoutCandidates spendable) := by
  rw [ofCandidates, if_neg (Int.not_lt.mpr hs), if_neg (Int.not_lt.mpr hm)]
  rfl

theorem Draft.ofCandidates_of_mapM {es : List Entitlement} (hs : 0 ≤ spendable)
    (hm : 0 ≤ minOutput) (hne : candidates ≠ [])
    (h : candidates.mapM (Candidate.entitlement spendable minOutput) = .ok es) :
    Draft.ofCandidates candidates spendable minOutput threshold =
      Draft.ofOutputs spendable minOutput threshold (skippedCount candidates)
        (dustCount candidates spendable minOutput) (keptOutputs candidates spendable minOutput) := by
  have he : candidates.isEmpty = false := by simpa using hne
  simp only [Draft.ofCandidates, Int.not_lt.mpr hs, Int.not_lt.mpr hm, he, ↓reduceIte, h, bind,
    Except.bind, Bool.false_eq_true, count_unaddressed h, count_dust h, filterMap_receiver h,
    keptOutputs]

theorem Draft.ofCandidates_of_mapM_error {fault : Fault} (hs : 0 ≤ spendable)
    (hm : 0 ≤ minOutput) (hne : candidates ≠ [])
    (h : candidates.mapM (Candidate.entitlement spendable minOutput) = .error fault) :
    Draft.ofCandidates candidates spendable minOutput threshold = .error fault := by
  have he : candidates.isEmpty = false := by simpa using hne
  simp only [Draft.ofCandidates, Int.not_lt.mpr hs, Int.not_lt.mpr hm, he, ↓reduceIte, h, bind,
    Except.bind, Bool.false_eq_true]

theorem Draft.ofCandidates_eq_ok {d : Draft} (hne : candidates ≠ [])
    (h : Draft.ofCandidates candidates spendable minOutput threshold = .ok d) :
    0 ≤ spendable ∧ 0 ≤ minOutput ∧
      Draft.ofOutputs spendable minOutput threshold (skippedCount candidates)
        (dustCount candidates spendable minOutput) (keptOutputs candidates spendable minOutput) =
          .ok d := by
  by_cases hs : spendable < 0
  · simp [Draft.ofCandidates, hs] at h
  by_cases hm : minOutput < 0
  · simp [Draft.ofCandidates, hs, hm] at h
  cases he : candidates.mapM (Candidate.entitlement spendable minOutput) with
  | error fault =>
    rw [Draft.ofCandidates_of_mapM_error (by omega) (by omega) hne he] at h
    cases h
  | ok es =>
    rw [Draft.ofCandidates_of_mapM (by omega) (by omega) hne he] at h
    exact ⟨by omega, by omega, h⟩

theorem Draft.ofCandidates_nil_eq_ok {d : Draft}
    (h : Draft.ofCandidates [] spendable minOutput threshold = .ok d) :
    0 ≤ spendable ∧ 0 ≤ minOutput ∧ d = .withoutCandidates spendable := by
  by_cases hs : spendable < 0
  · simp [Draft.ofCandidates, hs] at h
  by_cases hm : minOutput < 0
  · simp [Draft.ofCandidates, hs, hm] at h
  simp only [Draft.ofCandidates, hs, hm, ↓reduceIte, List.isEmpty_nil, pure, Except.pure,
    Except.ok.injEq] at h
  exact ⟨by omega, by omega, h.symm⟩

/-- The draft of outputs asks for the fallback address exactly for a remainder above the threshold. -/
theorem Draft.ofOutputs_eq_ok {skipped dust : Int} {outputs : List Receiver} {d : Draft}
    (h : Draft.ofOutputs spendable minOutput threshold skipped dust outputs = .ok d) :
    Receiver.total outputs - spendable ≤ outputs.length ∧
      (d.forFallback = if d.payout.remainderToFallback then some d.payout.remainder else none) ∧
      d.reported = [d.payout.remainder] := by
  rw [Draft.ofOutputs] at h
  split at h
  · cases h
  · rw [← Except.ok.inj h]
    exact ⟨by omega, rfl, rfl⟩

theorem Draft.close_eq_ok_iff {d : Draft} {q : Payout} :
    d.close q = .ok p ↔ Reportable d.reported ∧ q = p := by
  simp [close, report_bind_eq_ok_iff, pure, Except.pure]

theorem Draft.close_eq_error_iff {d : Draft} {q : Payout} {fault : Fault} :
    d.close q = .error fault ↔ ¬Reportable d.reported ∧ fault = .tooManyDigits := by
  rw [← report_eq_error_iff, close]
  cases report d.reported <;> simp [bind, Except.bind, pure, Except.pure]

/-- Settling a draft puts at most one output behind those of the draft. -/
theorem Draft.settle_eq_ok {d : Draft}
    (hd : d.forFallback = if d.payout.remainderToFallback then some d.payout.remainder else none)
    (h : (d.settle fallback).outcome = .ok p) :
    Reportable d.reported ∧ ∃ tail, p = { d.payout with receivers := d.payout.receivers ++ tail } ∧
      (d.payout.remainderToFallback = false → tail = []) ∧
      (d.payout.remainderToFallback = true →
        ∃ address, answered fallback address ∧ tail = [⟨d.payout.remainder, address⟩]) := by
  unfold Draft.settle at h
  cases ht : d.payout.remainderToFallback with
  | false =>
    simp only [hd, ht, Bool.false_eq_true, ↓reduceIte, Draft.close_eq_ok_iff] at h
    exact ⟨h.1, [], by simp [← h.2], fun _ => rfl, nofun⟩
  | true =>
    simp only [hd, ht, ↓reduceIte] at h
    cases ha : fallback.filter (!·.isEmpty) with
    | none => simp [ha] at h
    | some address =>
      simp only [ha, Draft.close_eq_ok_iff] at h
      exact ⟨h.1, [⟨d.payout.remainder, address⟩], by simp [← h.2, ht], nofun,
        fun _ => ⟨address, answered_iff.mp ha, rfl⟩⟩

/-- Settling a draft fails for want of a fallback address, and then for the closing line. -/
theorem Draft.settle_eq_error_iff {d : Draft} {fault : Fault} :
    (d.settle fallback).outcome = .error fault ↔
      FirstOf [RefusedIf (d.forFallback.isSome = true ∧ Unanswered fallback) .noFallbackAddress,
        RefusedIf (¬Reportable d.reported) .tooManyDigits] fault := by
  rw [← filter_eq_none_iff_unanswered]
  unfold settle
  cases d.forFallback with
  | none => simp [close_eq_error_iff, FirstOf, RefusedIf]
  | some amount =>
    cases fallback.filter (!·.isEmpty) with
    | none => simp [FirstOf, RefusedIf, eq_comm]
    | some address => simp [close_eq_error_iff, FirstOf, RefusedIf]

theorem Draft.settle_eq_error {d : Draft} {fault : Fault}
    (h : (d.settle fallback).outcome = .error fault) :
    ((d.forFallback.isSome = true ∧ Unanswered fallback) ∧ fault = .noFallbackAddress) ∨
      (¬Reportable d.reported ∧ fault = .tooManyDigits) := by
  rcases Draft.settle_eq_error_iff.mp h with hun | ⟨_, hreport | ⟨_, hnone⟩⟩
  · exact .inl hun
  · exact .inr hreport
  · exact hnone.elim

/-- With an address and a closing line that can be written a draft is settled. -/
theorem Draft.exists_settle_eq_ok {d : Draft} {address : String} (ha : address ≠ "")
    (hreport : Reportable d.reported) : ∃ p, (d.settle (some address)).outcome = .ok p := by
  cases hsettle : (d.settle (some address)).outcome with
  | ok p => exact ⟨p, rfl⟩
  | error fault =>
    rcases Draft.settle_eq_error hsettle with ⟨⟨_, hun⟩, _⟩ | ⟨hnot, _⟩
    · exact (not_answered_of_unanswered hun address ⟨rfl, ha⟩).elim
    · exact (hnot hreport).elim

theorem split_eq_ok (h : (split candidates spendable minOutput threshold fallback).outcome = .ok p) :
    ∃ d, Draft.ofCandidates candidates spendable minOutput threshold = .ok d ∧
      (d.settle fallback).outcome = .ok p := by
  unfold split at h
  cases hd : Draft.ofCandidates candidates spendable minOutput threshold with
  | error f => simp [hd] at h
  | ok d => exact ⟨d, rfl, by simpa [hd] using h⟩

/-! ## Payouts -/

/-- All that a successful split among candidates says about its payout. -/
structure PaysCandidates (candidates : List Candidate) (spendable minOutput threshold : Int)
    (fallback : Option String) (p : Payout) : Prop where
  spendable_nonneg : 0 ≤ spendable
  minOutput_nonneg : 0 ≤ minOutput
  /-- The excess is no more than rounding explains. -/
  excess_le : Receiver.total (keptOutputs candidates spendable minOutput) - spendable ≤
    (keptOutputs candidates spendable minOutput).length
  spendable_eq : p.spendable = spendable
  skipped_eq : p.skipped = skippedCount candidates
  dust_eq : p.dust = dustCount candidates spendable minOutput +
    (trimmedOutputs candidates spendable minOutput).dropped
  remainder_eq : p.remainder = -(trimmedOutputs candidates spendable minOutput).excess
  roundingExcess_eq : p.roundingExcess =
    max 0 (Receiver.total (keptOutputs candidates spendable minOutput) - spendable)
  /-- The closing line names it. -/
  remainder_writable : Writable p.remainder
  fallbackOnly_eq : p.fallbackOnly = false
  toFallback_iff : p.remainderToFallback = true ↔ 0 < p.remainder ∧ threshold < p.remainder
  receivers_of_not : p.remainderToFallback = false →
    p.receivers = (trimmedOutputs candidates spendable minOutput).descending.reverse
  receivers_of_toFallback : p.remainderToFallback = true → ∃ address, answered fallback address ∧
    p.receivers = (trimmedOutputs candidates spendable minOutput).descending.reverse ++
      [⟨p.remainder, address⟩]

theorem paysCandidates_of_split (hne : candidates ≠ [])
    (h : (split candidates spendable minOutput threshold fallback).outcome = .ok p) :
    PaysCandidates candidates spendable minOutput threshold fallback p := by
  obtain ⟨d, hd, hp⟩ := split_eq_ok h
  obtain ⟨hs, hm, ho⟩ := Draft.ofCandidates_eq_ok hne hd
  obtain ⟨hle, hf, hreported⟩ := Draft.ofOutputs_eq_ok ho
  obtain ⟨hreport, tail, rfl, hnot, hto⟩ := Draft.settle_eq_ok hf hp
  rw [hreported] at hreport
  rw [Draft.ofOutputs, if_neg (by omega)] at ho
  have hd := Except.ok.inj ho
  subst hd
  exact {
    spendable_nonneg := hs
    minOutput_nonneg := hm
    excess_le := hle
    spendable_eq := rfl
    skipped_eq := rfl
    dust_eq := rfl
    remainder_eq := rfl
    roundingExcess_eq := rfl
    remainder_writable := reportable_singleton.mp hreport
    fallbackOnly_eq := rfl
    toFallback_iff := by simp
    receivers_of_not := by
      intro ht
      rw [hnot ht, List.append_nil]
      rfl
    receivers_of_toFallback := by
      intro ht
      obtain ⟨address, ha, rfl⟩ := hto ht
      exact ⟨address, ha, rfl⟩ }

theorem PaysCandidates.candidateOutputs_eq
    (h : PaysCandidates candidates spendable minOutput threshold fallback p) :
    p.candidateOutputs = (trimmedOutputs candidates spendable minOutput).descending.reverse := by
  unfold Payout.candidateOutputs
  cases ht : p.remainderToFallback with
  | false => simpa using h.receivers_of_not ht
  | true =>
    obtain ⟨address, _, hr⟩ := h.receivers_of_toFallback ht
    simp [hr]

/-- Without candidates the fallback address gets everything. -/
theorem split_nil_eq_ok (h : (split [] spendable minOutput threshold fallback).outcome = .ok p) :
    0 ≤ spendable ∧ 0 ≤ minOutput ∧ ∃ address, answered fallback address ∧
      p = { receivers := [⟨spendable, address⟩], spendable, fallbackOnly := true } := by
  obtain ⟨d, hd, hp⟩ := split_eq_ok h
  obtain ⟨hs, hm, rfl⟩ := Draft.ofCandidates_nil_eq_ok hd
  unfold Draft.settle Draft.withoutCandidates at hp
  cases ha : fallback.filter (!·.isEmpty) with
  | none => simp [ha] at hp
  | some address =>
    simp only [ha, List.nil_append, Draft.close_eq_ok_iff] at hp
    exact ⟨hs, hm, address, answered_iff.mp ha, hp.2.symm⟩

end DelayedPayout
