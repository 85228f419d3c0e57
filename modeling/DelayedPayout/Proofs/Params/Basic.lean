import DelayedPayout.Params.Basic
import DelayedPayout.Proofs.Traversal

/-!
Which values make a parameter set. Naturals for all parameters do, the two divisors being positive, and
nothing else (`ofScalars_eq_ok_iff`, `exists_ofScalars_int_iff`). A refusal names the first value that is no
natural number, and a zero divisor only where there is none (`ofScalars_eq_error_iff`).
-/

namespace DelayedPayout

namespace Param

/-! ## One value a parameter -/

section InOrder

variable {α : Type} {find : Param → Except Fault α} {values : Param → α} {fault : Fault}

theorem mem_all (p : Param) : p ∈ all := by
  cases p <;> decide

theorem mapM_all (find : Param → Except Fault α) :
    all.mapM find = (fun values => all.map values) <$> inOrder find := by
  simp [all, inOrder, List.mapM_cons]

theorem mapM_all_eq_ok_iff : all.mapM find = .ok (all.map values) ↔ ∀ p, find p = .ok (values p) := by
  rw [mapM_eq_ok_iff, List.forall₂_map_right_iff, List.forall₂_same]
  exact ⟨fun h p => h p p.mem_all, fun h p _ => h p⟩

theorem map_all_inj {values' : Param → α} (h : all.map values = all.map values') :
    values = values' := by
  funext p
  exact List.map_inj_left.mp h p p.mem_all

theorem inOrder_eq_ok_iff : inOrder find = .ok values ↔ ∀ p, find p = .ok (values p) := by
  rw [← mapM_all_eq_ok_iff, mapM_all]
  cases inOrder find with
  | error fault => simp [Functor.map, Except.map]
  | ok found =>
    simp only [Functor.map, Except.map, Except.ok.injEq]
    exact ⟨congrArg all.map, map_all_inj⟩

theorem inOrder_eq_error_iff :
    inOrder find = .error fault ↔ FirstOf (all.map fun p other => find p = .error other) fault := by
  rw [← mapM_eq_error_iff, mapM_all]
  cases inOrder find <;> simp [Functor.map, Except.map]

end InOrder

/-! ## One value -/

/-- Why a value is no natural number. -/
inductive NoNatural (p : Param) : Scalar → Fault → Prop
  | negative {n : Int} (h : n < 0) : NoNatural p (.int n) (.negativeParam p n)
  | notAnInteger {value : Scalar} (h : ∀ n, value ≠ .int n) :
    NoNatural p value (.paramNotAnInteger p value)

variable {p : Param} {value : Scalar} {fault : Fault}

theorem natural_eq_ok_iff {n : Nat} : p.natural value = .ok n ↔ value = .int n := by
  cases value with
  | int m =>
    by_cases hm : m < 0
    · have hne : m ≠ n := by omega
      simp [natural, hm, hne]
    · have htoNat : m.toNat = n ↔ m = n := by omega
      simp [natural, hm, htoNat]
  | _ => simp [natural]

theorem natural_eq_error_iff : p.natural value = .error fault ↔ p.NoNatural value fault := by
  constructor
  · intro h
    cases value with
    | int n =>
      by_cases hn : n < 0
      · rw [natural, if_pos hn] at h
        cases h
        exact .negative hn
      · rw [natural, if_neg hn] at h
        cases h
    | _ =>
      cases h
      exact .notAnInteger (by simp)
  · intro h
    cases h with
    | negative hn => rw [natural, if_pos hn]
    | notAnInteger hvalue =>
      cases value with
      | int n => exact (hvalue n rfl).elim
      | _ => rfl

theorem noNatural_int_iff {n : Int} :
    p.NoNatural (.int n) fault ↔ RefusedIf (n < 0) (.negativeParam p n) fault := by
  constructor
  · intro h
    cases h with
    | negative hn => exact ⟨hn, rfl⟩
    | notAnInteger hvalue => exact (hvalue n rfl).elim
  · rintro ⟨hn, rfl⟩
    exact .negative hn

end Param

namespace Params

/-! ## Sets of naturals -/

variable {params : Params} {fault : Fault}

theorem ext_get {params' : Params} (h : ∀ p, params.get p = params'.get p) : params = params' := by
  cases params
  cases params'
  simp only [mk.injEq]
  exact ⟨h .snapshotGrid, h .minOutputAmount, h .minRemainderToFallback, h .minTxFeeRate,
    h .referenceTxSize, h .baseTxSize, h .outputSize, h .selectionHeightToleranceGrids⟩

section OfNaturals

variable {value : Param → Nat}

theorem exists_ofNaturals (hgrid : 0 < value .snapshotGrid) (hreference : 0 < value .referenceTxSize) :
    ∃ params, ofNaturals value = .ok params ∧ ∀ p, params.get p = value p := by
  rw [ofNaturals, dif_pos hgrid, dif_pos hreference]
  refine ⟨_, rfl, fun p => ?_⟩
  cases p <;> rfl

theorem ofNaturals_eq_ok_iff : ofNaturals value = .ok params ↔ ∀ p, value p = params.get p := by
  constructor
  · intro h
    unfold ofNaturals at h
    split at h
    · split at h
      · cases h
        intro p
        cases p <;> rfl
      · cases h
    · cases h
  · intro h
    have hgrid : 0 < value .snapshotGrid := h .snapshotGrid ▸ params.snapshotGrid_pos
    have hreference : 0 < value .referenceTxSize := h .referenceTxSize ▸ params.referenceTxSize_pos
    obtain ⟨found, hfound, hget⟩ := exists_ofNaturals hgrid hreference
    rw [hfound, ext_get fun p => (hget p).trans (h p)]

theorem ofNaturals_eq_error_iff :
    ofNaturals value = .error fault ↔ FirstOf
      [RefusedIf (value .snapshotGrid = 0) (.zeroParam .snapshotGrid),
        RefusedIf (value .referenceTxSize = 0) (.zeroParam .referenceTxSize)] fault := by
  by_cases hgrid : value .snapshotGrid = 0
  · rw [firstOf_refusedIf_of hgrid]
    simp [ofNaturals, hgrid, eq_comm]
  · rw [firstOf_refusedIf_of_not hgrid]
    by_cases hreference : value .referenceTxSize = 0
    · rw [firstOf_refusedIf_of hreference]
      simp [ofNaturals, Nat.pos_of_ne_zero hgrid, hreference, eq_comm]
    · rw [firstOf_refusedIf_of_not hreference]
      simp [ofNaturals, Nat.pos_of_ne_zero hgrid, Nat.pos_of_ne_zero hreference, FirstOf]

end OfNaturals

/-! ## Sets of untyped values -/

section OfScalars

variable {value : Param → Scalar}

theorem ofScalars_of_naturals {naturals : Param → Nat} (h : ∀ p, value p = .int (naturals p)) :
    ofScalars value = ofNaturals naturals := by
  have hnaturals : Param.inOrder (fun p => p.natural (value p)) = .ok naturals :=
    Param.inOrder_eq_ok_iff.mpr fun p => Param.natural_eq_ok_iff.mpr (h p)
  rw [ofScalars, hnaturals]
  rfl

/-- **The sets that untyped values make.** -/
theorem ofScalars_eq_ok_iff : ofScalars value = .ok params ↔ ∀ p, value p = .int (params.get p) := by
  constructor
  · intro h
    cases hfound : Param.inOrder fun p => p.natural (value p) with
    | error fault =>
      rw [ofScalars, hfound] at h
      cases h
    | ok naturals =>
      rw [ofScalars, hfound] at h
      intro p
      rw [← ofNaturals_eq_ok_iff.mp h p, ← Param.natural_eq_ok_iff]
      exact Param.inOrder_eq_ok_iff.mp hfound p
  · intro h
    rw [ofScalars_of_naturals h]
    exact ofNaturals_eq_ok_iff.mpr fun _ => rfl

/-- **Why untyped values make no set.** -/
theorem ofScalars_eq_error_iff : ofScalars value = .error fault ↔ FirstOf
    (Param.all.map (fun p => p.NoNatural (value p)) ++
      [RefusedIf (value .snapshotGrid = .int 0) (.zeroParam .snapshotGrid),
        RefusedIf (value .referenceTxSize = .int 0) (.zeroParam .referenceTxSize)]) fault := by
  have hfirst : ∀ other, FirstOf (Param.all.map fun p => p.NoNatural (value p)) other ↔
      Param.inOrder (fun p => p.natural (value p)) = .error other := by
    intro other
    rw [Param.inOrder_eq_error_iff]
    exact firstOf_map_congr fun p _ _ => Param.natural_eq_error_iff.symm
  rw [firstOf_append_iff]
  simp only [hfirst]
  cases hfound : Param.inOrder fun p => p.natural (value p) with
  | error found =>
    rw [ofScalars, hfound]
    simp [bind, Except.bind]
  | ok naturals =>
    have hnaturals : ∀ p, value p = .int (naturals p) := fun p =>
      Param.natural_eq_ok_iff.mp (Param.inOrder_eq_ok_iff.mp hfound p)
    rw [ofScalars_of_naturals hnaturals, ofNaturals_eq_error_iff]
    simp [hnaturals]

/-- Integers make a set exactly when none is negative and the divisors are positive. -/
theorem exists_ofScalars_int_iff {values : Param → Int} :
    (∃ params, ofScalars (fun p => .int (values p)) = .ok params) ↔
      (∀ p, 0 ≤ values p) ∧ 1 ≤ values .snapshotGrid ∧ 1 ≤ values .referenceTxSize := by
  simp only [ofScalars_eq_ok_iff, Scalar.int.injEq]
  constructor
  · rintro ⟨params, h⟩
    refine ⟨fun p => h p ▸ Int.natCast_nonneg _, ?_, ?_⟩
    · rw [h]
      exact Int.ofNat_lt.mpr params.snapshotGrid_pos
    · rw [h]
      exact Int.ofNat_lt.mpr params.referenceTxSize_pos
  · rintro ⟨hnonneg, hgrid, hreference⟩
    have hset : ∃ params, ofNaturals (fun p => (values p).toNat) = .ok params ∧
        ∀ p, params.get p = (values p).toNat :=
      exists_ofNaturals (Int.pos_iff_toNat_pos.mp hgrid) (Int.pos_iff_toNat_pos.mp hreference)
    obtain ⟨params, _, hget⟩ := hset
    exact ⟨params, fun p => by rw [hget p, Int.toNat_of_nonneg (hnonneg p)]⟩

end OfScalars

end Params

end DelayedPayout
