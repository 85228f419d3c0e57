import DelayedPayout.Proofs.Number.Range
import DelayedPayout.Proofs.Payout.LegitimateShares
import DelayedPayout.Proofs.Payout.Trimming

/-!
The grounds on which a split is refused. They are looked at in a fixed order, and the first that applies
gives the fault (`FirstOf`); the candidates are looked at in their order, each for its share and then for
the amount (`Candidate.Unpayable`). Nothing else is refused: a share of an amount is a finite number, so
that rounding it never fails (`exists_wholeNumber_mul`). Main statement: `split_refused_iff`.
-/

namespace DelayedPayout

open Number

/-! ## Shares and amounts -/

/-- Why a value is no share. An integer that is too large is refused as that. -/
inductive Scalar.NoShare : Scalar → Fault → Prop
  | text (s : String) : NoShare (.text s) (.shareNotANumber (.text s))
  | flag (b : Bool) : NoShare (.flag b) (.shareNotANumber (.flag b))
  | null : NoShare .null (.shareNotANumber .null)
  | tooLarge {n : Int} (h : overflow ≤ |n|) : NoShare (.int n) .integerTooLarge
  | int {n : Int} (h : |n| < overflow) (hout : n < 0 ∨ 1 < n) :
    NoShare (.int n) (.shareOutOfRange (.int n))
  | nan : NoShare (.real .nan) (.shareOutOfRange (.real .nan))
  | infinite (negative : Bool) :
    NoShare (.real (.infinite negative)) (.shareOutOfRange (.real (.infinite negative)))
  | finite {x : Finite64} (hout : x.value < 0 ∨ 1 < x.value) :
    NoShare (.real (.finite x)) (.shareOutOfRange (.real (.finite x)))

theorem Scalar.toShare_eq_error_iff {s : Scalar} {fault : Fault} :
    s.toShare = .error fault ↔ s.NoShare fault := by
  constructor
  · intro h
    cases s with
    | int n =>
      cases hn : Binary64.ofInt? n with
      | none =>
        rw [toShare, hn] at h
        cases h
        exact .tooLarge (Binary64.ofInt?_eq_none_iff.mp hn)
      | some x =>
        rw [toShare, hn] at h
        by_cases hin : 0 ≤ n ∧ n ≤ 1
        · simp [hin] at h
        · simp only [← Bool.decide_and, hin, decide_false, Bool.false_eq_true, ↓reduceIte] at h
          cases h
          exact .int (Binary64.exists_ofInt?_iff.mp ⟨x, hn⟩) (by omega)
    | real x =>
      cases x with
      | nan =>
        cases h
        exact .nan
      | infinite negative =>
        cases h
        exact .infinite negative
      | finite x =>
        rw [toShare] at h
        by_cases hin : 0 ≤ x.value ∧ x.value ≤ 1
        · simp [Finite64.inUnit, hin] at h
        · simp only [Finite64.inUnit, ← Bool.decide_and, hin, decide_false, Bool.false_eq_true,
            ↓reduceIte] at h
          cases h
          rw [not_and_or, not_le, not_le] at hin
          exact .finite hin
    | text s =>
      cases h
      exact .text s
    | flag b =>
      cases h
      exact .flag b
    | null =>
      cases h
      exact .null
  · intro h
    cases h with
    | tooLarge hlarge => rw [toShare, Binary64.ofInt?_eq_none_iff.mpr hlarge]
    | int hsmall hout =>
      obtain ⟨x, hx⟩ := Binary64.exists_ofInt?_iff.mpr hsmall
      rw [toShare, hx]
      simp only [← Bool.decide_and]
      rw [if_neg (by simp; omega)]
    | finite hout =>
      rw [toShare, if_neg]
      rw [← not_le, ← not_le, ← not_and_or] at hout
      simpa [Finite64.inUnit] using hout
    | _ => rfl

theorem Scalar.isShare_or_noShare (s : Scalar) : s.IsShare ∨ ∃ fault, s.NoShare fault := by
  cases s with
  | int n =>
    by_cases hin : 0 ≤ n ∧ n ≤ 1
    · exact .inl hin
    · by_cases hlarge : overflow ≤ |n|
      · exact .inr ⟨_, .tooLarge hlarge⟩
      · exact .inr ⟨_, .int (Int.not_le.mp hlarge) (by omega)⟩
  | real x =>
    cases x with
    | nan => exact .inr ⟨_, .nan⟩
    | infinite negative => exact .inr ⟨_, .infinite negative⟩
    | finite x =>
      by_cases hin : 0 ≤ x.value ∧ x.value ≤ 1
      · exact .inl hin
      · rw [not_and_or, not_le, not_le] at hin
        exact .inr ⟨_, .finite hin⟩
  | text s => exact .inr ⟨_, .text s⟩
  | flag b => exact .inr ⟨_, .flag b⟩
  | null => exact .inr ⟨_, .null⟩

theorem Scalar.value_of_toShare {s : Scalar} {x : Finite64} (h : s.toShare = .ok x) :
    0 ≤ x.value ∧ x.value ≤ 1 := by
  rcases s.isShare_or_noShare with hshare | ⟨fault, hnone⟩
  · obtain ⟨y, hy, hvalue⟩ := toShare_of_isShare hshare
    cases h.symm.trans hy
    rw [hvalue]
    exact exact_of_isShare hshare
  · rw [toShare_eq_error_iff.mpr hnone] at h
    cases h

/-- A part of a whole has an amount, however large the whole is. -/
theorem exists_wholeNumber_mul {share whole : Finite64} {spendable : Int} (hs : 0 ≤ spendable)
    (h0 : 0 ≤ share.value) (h1 : share.value ≤ 1) (hwhole : Binary64.ofInt? spendable = some whole) :
    ∃ amount, wholeNumber (share.mul whole) = .ok amount := by
  obtain ⟨hvalue, _⟩ := Binary64.value_of_ofRat?_eq_some (Int.cast_nonneg hs) hwhole
  have hnonneg : 0 ≤ whole.value := hvalue ▸ Precision.value_round_nonneg binary64_base _
  obtain ⟨product, hproduct, _⟩ := Finite64.exists_mul_of_le_one h0 h1 hnonneg
  exact ⟨product.halfUp, by rw [hproduct, wholeNumber]⟩

/-! ## Candidates -/

section Candidates

variable {c : Candidate} {spendable minOutput : Int} {fault : Fault}

/-- Why a candidate is refused: the share is none, or there is an address and the whole is too large to be
shared. -/
def Candidate.Unpayable (spendable : Int) (c : Candidate) : Fault → Prop :=
  FirstOf [c.share.NoShare,
    RefusedIf (c.payee?.isSome = true ∧ overflow ≤ spendable) .integerTooLarge]

theorem Candidate.amount_eq_error_iff_of_toShare {share : Finite64} (hs : 0 ≤ spendable)
    (h : c.share.toShare = .ok share) :
    c.amount spendable = .error fault ↔ overflow ≤ spendable ∧ fault = .integerTooLarge := by
  simp only [amount, h, bind, Except.bind]
  cases hwhole : Binary64.ofInt? spendable with
  | none =>
    have hlarge := Binary64.ofInt?_eq_none_iff.mp hwhole
    rw [abs_of_nonneg hs] at hlarge
    simp [hlarge, eq_comm]
  | some whole =>
    have hsmall := Binary64.exists_ofInt?_iff.mp ⟨whole, hwhole⟩
    rw [abs_of_nonneg hs] at hsmall
    obtain ⟨h0, h1⟩ := Scalar.value_of_toShare h
    obtain ⟨amount, hamount⟩ := exists_wholeNumber_mul hs h0 h1 hwhole
    simp [hamount, Int.not_le.mpr hsmall]

theorem Candidate.entitlement_eq_error_iff (hs : 0 ≤ spendable) :
    c.entitlement spendable minOutput = .error fault ↔ c.Unpayable spendable fault := by
  have hno : ∀ other, c.share.NoShare other ↔ c.share.toShare = .error other :=
    fun _ => Scalar.toShare_eq_error_iff.symm
  unfold Unpayable
  cases hshare : c.share.toShare with
  | error reason =>
    have hreason : ∀ other, c.share.NoShare other ↔ other = reason := by
      simp [hno, hshare, eq_comm]
    rw [firstOf_cons_of_iff hreason, entitlement, hshare]
    simp [bind, Except.bind, eq_comm]
  | ok share =>
    rw [firstOf_cons_of_not (by simp [hno, hshare])]
    cases hpayee : c.payee? with
    | none => simp [entitlement_of_no_payee hpayee, hshare, Except.map, FirstOf, RefusedIf]
    | some address =>
      have hmap : c.entitlement spendable minOutput = .error fault ↔
          c.amount spendable = .error fault := by
        rw [entitlement_of_payee hpayee]
        cases c.amount spendable <;> simp [Except.map]
      rw [hmap, amount_eq_error_iff_of_toShare hs hshare]
      simp [FirstOf, RefusedIf]

/-- No candidate is refused for an amount that is not finite. -/
theorem Candidate.ne_notFinite_of_unpayable (h : c.Unpayable spendable fault) (x : Binary64) :
    fault ≠ .notFinite x := by
  rintro rfl
  obtain ⟨ground, hmem, hground⟩ := exists_ground_of_firstOf h
  rcases List.mem_pair.mp hmem with rfl | rfl
  · generalize c.share = share at hground
    cases hground
  · cases hground.2

end Candidates

/-! ## Splits -/

section Splits

variable {candidates : List Candidate} {spendable minOutput threshold : Int}
  {fallback : Option String} {fault : Fault}

def keptExcess (candidates : List Candidate) (spendable minOutput : Int) : Int :=
  Receiver.total (keptOutputs candidates spendable minOutput) - spendable

/-- Without candidates a split is refused only for want of an address. -/
theorem split_nil_eq_error_iff (hs : 0 ≤ spendable) (hm : 0 ≤ minOutput) :
    (split [] spendable minOutput threshold fallback).outcome = .error fault ↔
      Unanswered fallback ∧ fault = .noFallbackAddress := by
  rw [split, Draft.ofCandidates_nil hs hm]
  simp [Draft.settle_eq_error_iff, Draft.withoutCandidates, FirstOf, RefusedIf]

/-- The closing line names the leftover, and cannot be written. -/
def unwrittenLeftover (candidates : List Candidate) (spendable minOutput : Int) : Fault → Prop :=
  RefusedIf (candidates ≠ [] ∧ ¬Writable (leftover candidates spendable minOutput)) .tooManyDigits

/-- With candidates that are not refused a split is refused for the excess, then for want of an address
that the leftover goes to, and then for the closing line. -/
theorem split_of_mapM_eq_error_iff {entitlements : List Entitlement} (hs : 0 ≤ spendable)
    (hm : 0 ≤ minOutput) (hne : candidates ≠ [])
    (h : candidates.mapM (Candidate.entitlement spendable minOutput) = .ok entitlements) :
    (split candidates spendable minOutput threshold fallback).outcome = .error fault ↔
      FirstOf
        [RefusedIf
          ((keptOutputs candidates spendable minOutput).length < keptExcess candidates spendable minOutput)
          (.sharesExceedWhole (keptExcess candidates spendable minOutput)),
        RefusedIf (0 < leftover candidates spendable minOutput ∧
          threshold < leftover candidates spendable minOutput ∧ Unanswered fallback)
          .noFallbackAddress,
        unwrittenLeftover candidates spendable minOutput] fault := by
  rw [split, Draft.ofCandidates_of_mapM hs hm hne h, Draft.ofOutputs]
  unfold keptExcess unwrittenLeftover
  rw [leftover_eq]
  by_cases hexcess : (keptOutputs candidates spendable minOutput).length <
      Receiver.total (keptOutputs candidates spendable minOutput) - spendable
  · rw [firstOf_refusedIf_of hexcess, if_pos hexcess]
    simp [eq_comm]
  · rw [firstOf_refusedIf_of_not hexcess, if_neg hexcess]
    simp [Draft.settle_eq_error_iff, FirstOf, RefusedIf, trimmedOutputs, and_assoc, hne]

/-- The grounds on which a split is refused before its closing line, in the order in which they are looked
at. -/
def refusals (candidates : List Candidate) (spendable minOutput threshold : Int)
    (fallback : Option String) : List (Fault → Prop) :=
  [ RefusedIf (spendable < 0) (.negativeSpendable spendable),
    RefusedIf (minOutput < 0) (.negativeMinOutput minOutput),
    RefusedIf (candidates = [] ∧ Unanswered fallback) .noFallbackAddress,
    FirstOf (candidates.map (Candidate.Unpayable spendable)),
    RefusedIf ((keptOutputs candidates spendable minOutput).length < keptExcess candidates spendable minOutput)
      (.sharesExceedWhole (keptExcess candidates spendable minOutput)),
    RefusedIf (0 < leftover candidates spendable minOutput ∧
      threshold < leftover candidates spendable minOutput ∧ Unanswered fallback) .noFallbackAddress ]

theorem split_eq_error_iff :
    (split candidates spendable minOutput threshold fallback).outcome = .error fault ↔
      FirstOf (refusals candidates spendable minOutput threshold fallback ++
        [unwrittenLeftover candidates spendable minOutput]) fault := by
  simp only [refusals, List.cons_append, List.nil_append]
  by_cases hs : spendable < 0
  · rw [firstOf_refusedIf_of hs]
    simp [split, Draft.ofCandidates, hs, eq_comm]
  rw [firstOf_refusedIf_of_not hs]
  by_cases hm : minOutput < 0
  · rw [firstOf_refusedIf_of hm]
    simp [split, Draft.ofCandidates, hs, hm, eq_comm]
  rw [firstOf_refusedIf_of_not hm]
  rw [Int.not_lt] at hs hm
  by_cases hne : candidates = []
  · subst hne
    rw [split_nil_eq_error_iff hs hm]
    by_cases hun : Unanswered fallback
    · rw [firstOf_refusedIf_of ⟨rfl, hun⟩]
      exact and_iff_right hun
    · have hkept : keptOutputs [] spendable minOutput = [] := rfl
      have hnone : ∀ other, ¬FirstOf (([] : List Candidate).map (Candidate.Unpayable spendable)) other :=
        fun _ => id
      rw [firstOf_refusedIf_of_not (hun ·.2), firstOf_cons_of_not hnone,
        firstOf_refusedIf_of_not, firstOf_refusedIf_of_not (hun ·.2.2)]
      · exact iff_of_false (hun ·.1) fun hlast => hlast.elim (·.1.1 rfl) (·.2)
      · simpa [hkept, keptExcess, Receiver.total] using hs
  rw [firstOf_refusedIf_of_not (hne ·.1)]
  have hrefused : ∀ other, FirstOf (candidates.map (Candidate.Unpayable spendable)) other ↔
      candidates.mapM (Candidate.entitlement spendable minOutput) = .error other := by
    intro other
    rw [mapM_eq_error_iff]
    exact firstOf_map_congr fun _ _ _ => (Candidate.entitlement_eq_error_iff hs).symm
  cases hmap : candidates.mapM (Candidate.entitlement spendable minOutput) with
  | error reason =>
    have hreason : ∀ other, FirstOf (candidates.map (Candidate.Unpayable spendable)) other ↔
        other = reason := by
      simp [hrefused, hmap, eq_comm]
    rw [firstOf_cons_of_iff hreason, split, Draft.ofCandidates_of_mapM_error hs hm hne hmap]
    simp [eq_comm]
  | ok entitlements =>
    rw [firstOf_cons_of_not (by simp [hrefused, hmap])]
    exact split_of_mapM_eq_error_iff hs hm hne hmap

/-- An amount that can be written leaves no more than that, so the closing line is never why. -/
theorem firstOf_refusals_append_iff (hw : Writable spendable) :
    FirstOf (refusals candidates spendable minOutput threshold fallback ++
        [unwrittenLeftover candidates spendable minOutput]) fault ↔
      FirstOf (refusals candidates spendable minOutput threshold fallback) fault := by
  rw [firstOf_append_iff]
  refine or_iff_left ?_
  rintro ⟨hnone, ⟨⟨_, hnot⟩, _⟩ | ⟨_, hnil⟩⟩
  · have hs : 0 ≤ spendable := Int.not_lt.mp fun hneg => hnone _ (.inl ⟨hneg, rfl⟩)
    have hm : 0 ≤ minOutput := by
      refine Int.not_lt.mp fun hneg => hnone _ (.inr ⟨fun _ h => ?_, .inl ⟨hneg, rfl⟩⟩)
      exact Int.not_lt.mpr hs h.1
    exact hnot (writable_leftover candidates hs hm hw)
  · exact hnil

theorem ne_notFinite_of_refusals
    (h : FirstOf (refusals candidates spendable minOutput threshold fallback ++
      [unwrittenLeftover candidates spendable minOutput]) fault) (x : Binary64) :
    fault ≠ .notFinite x := by
  rintro rfl
  obtain ⟨ground, hmem, hground⟩ := exists_ground_of_firstOf h
  simp only [refusals, List.cons_append, List.nil_append, List.mem_cons, List.not_mem_nil,
    or_false] at hmem
  rcases hmem with rfl | rfl | rfl | rfl | rfl | rfl | rfl
  case inr.inr.inr.inl =>
    obtain ⟨_, hmem, hrefused⟩ := exists_ground_of_firstOf hground
    obtain ⟨c, _, rfl⟩ := List.mem_map.mp hmem
    exact Candidate.ne_notFinite_of_unpayable hrefused x rfl
  all_goals cases hground.2

/-- Of an amount that is too large and a share that is none the earlier one in the list is the fault. Without
either an amount with a digit too many is left for the closing line. -/
example :
    (split [{ name := "payee", share := .int 1, address := some "address" },
      { name := "pauper", share := .text "1" }] overflow 0 0 none).outcome = .error .integerTooLarge ∧
    (split [{ name := "pauper", share := .text "1" },
      { name := "payee", share := .int 1, address := some "address" }] overflow 0 0 none).outcome =
        .error (.shareNotANumber (.text "1")) ∧
    (split [{ name := "pauper" }] (Nat.pow 10 maxDigits) 0 0 (some "address")).outcome =
      .error .tooManyDigits := by
  decide +kernel

end Splits

end DelayedPayout
