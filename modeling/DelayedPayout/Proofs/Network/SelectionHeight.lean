import DelayedPayout.Proofs.Grid.Window
import DelayedPayout.Proofs.Network.Run

/-!
Selection heights. A party always has one, and it is a multiple of the grid
(`Network.selectionHeight_after`). A peer's height is held against it by distance alone, so the accepted
heights that are whole grid steps away are those on the grid (`Params.withinSteps_iff`); heights in
between pass as well.
-/

namespace DelayedPayout

open Number

/-! ## Heights on the grid -/

theorem selectionHeight_eq_ok (params : Params) (ledger : Ledger) (tip : ChainTip) :
    ∃ ours, selectionHeight params ledger tip = .ok ours ∧ (params.snapshotGrid : Int) ∣ ours :=
  ⟨_, gridHeight_natCast _ _ params.snapshotGrid_pos,
    Int.dvd_sub (Int.dvd_mul_left _ _) (Int.dvd_refl _)⟩

/-! ## Heights of a peer -/

namespace Params

variable {params : Params} {ours peer : Int}

/-- A peer's height is a whole number of grid steps away from ours, and no more of them than are
tolerated. -/
def WithinSteps (params : Params) (ours peer : Int) : Prop :=
  ∃ k : Int, k.natAbs ≤ params.selectionHeightToleranceGrids ∧
    peer = ours + k * params.snapshotGrid

theorem accepts_iff : params.accepts ours peer = true ↔ (ours - peer).natAbs ≤ params.tolerance :=
  decide_eq_true_iff

/-- Steps are within the tolerance if there are no more of them than are tolerated. -/
theorem natAbs_steps_le_iff {k : Int} :
    (k * params.snapshotGrid).natAbs ≤ params.tolerance ↔
      k.natAbs ≤ params.selectionHeightToleranceGrids := by
  rw [Int.natAbs_mul, Int.natAbs_natCast, tolerance]
  exact Nat.mul_le_mul_right_iff params.snapshotGrid_pos

theorem withinSteps_iff (h : (params.snapshotGrid : Int) ∣ ours) :
    params.WithinSteps ours peer ↔
      params.accepts ours peer = true ∧ (params.snapshotGrid : Int) ∣ peer := by
  rw [accepts_iff]
  constructor
  · rintro ⟨k, hk, rfl⟩
    refine ⟨?_, Int.dvd_add h (Int.dvd_mul_left _ _)⟩
    rw [show ours - (ours + k * params.snapshotGrid) = -(k * params.snapshotGrid) by omega,
      Int.natAbs_neg]
    exact natAbs_steps_le_iff.mpr hk
  · rintro ⟨hle, hpeer⟩
    obtain ⟨k, hk⟩ := Int.dvd_sub hpeer h
    rw [Int.mul_comm] at hk
    refine ⟨k, natAbs_steps_le_iff.mp ?_, by omega⟩
    rw [← hk]
    omega

end Params

namespace Network

variable {tips meters parties : Nat} {net : Network tips meters parties} {i : Fin parties}
  {history : List (Fin parties × Request)} {ours peer : Int}

theorem selectionHeight_eq (i : Fin parties) :
    net.selectionHeight i =
      DelayedPayout.selectionHeight (net.paramsOf i) (net.ledgerOf i) (net.tipOf i) :=
  rfl

/-- Whatever happened, a party has a selection height. -/
theorem selectionHeight_after (net : Network tips meters parties)
    (history : List (Fin parties × Request)) (i : Fin parties) :
    ∃ ours, (net.after history).selectionHeight i = .ok ours ∧
      ((net.paramsOf i).snapshotGrid : Int) ∣ ours := by
  rw [selectionHeight_eq, paramsOf_after]
  exact selectionHeight_eq_ok _ _ _

theorem answer_selectionHeight (h : (net.after history).selectionHeight i = .ok ours) :
    net.answer history i .selectionHeight = .ok (.height ours) := by
  rw [answer, step, h]
  rfl

theorem answer_acceptable (h : (net.after history).selectionHeight i = .ok ours) (peer : Int) :
    net.answer history i (.acceptable peer) =
      .ok (.verdict ((net.paramsOf i).accepts ours peer)) := by
  rw [answer, step, h, paramsOf_after]
  rfl

theorem answer_require (h : (net.after history).selectionHeight i = .ok ours) (peer : Int) :
    net.answer history i (.require peer) =
      if (net.paramsOf i).accepts ours peer then .ok .done
      else if Writable ours ∧ Writable peer then .error (.selectionHeightMismatch ours peer)
      else .error .tooManyDigits := by
  simp only [answer, step, h, paramsOf_after]
  split
  · rfl
  · by_cases hw : Writable ours ∧ Writable peer
    · rw [report_of_reportable (by simpa [and_comm] using hw), if_pos hw]
      rfl
    · rw [report_of_not_reportable (by simpa [and_comm] using hw), if_neg hw]
      rfl

/-- **A peer's selection height is accepted iff it is no farther from ours than the tolerance.** The
heights that are whole grid steps away, no more than are tolerated, are the accepted ones on the
grid. -/
theorem withinSteps_iff_accepted_on_grid (net : Network tips meters parties)
    (history : List (Fin parties × Request)) (i : Fin parties) (peer : Int) :
    ∃ ours verdict,
      net.answer history i .selectionHeight = .ok (.height ours) ∧
      net.answer history i (.acceptable peer) = .ok (.verdict verdict) ∧
      (verdict = true ↔ (ours - peer).natAbs ≤ (net.paramsOf i).tolerance) ∧
      ((net.paramsOf i).WithinSteps ours peer ↔
        verdict = true ∧ ((net.paramsOf i).snapshotGrid : Int) ∣ peer) ∧
      net.answer history i (.require peer) =
        if verdict then .ok .done
        else if Writable ours ∧ Writable peer then .error (.selectionHeightMismatch ours peer)
        else .error .tooManyDigits := by
  obtain ⟨ours, hours, hgrid⟩ := net.selectionHeight_after history i
  exact ⟨ours, (net.paramsOf i).accepts ours peer, answer_selectionHeight hours,
    answer_acceptable hours peer, Params.accepts_iff, Params.withinSteps_iff hgrid,
    answer_require hours peer⟩

/-- Half a grid step away from ours a height is accepted. -/
theorem accepts_half_step :
    (solo []).answer [(0, .advance 141)] 0 .selectionHeight = .ok (.height 130) ∧
      (solo []).answer [(0, .advance 141)] 0 (.acceptable 135) = .ok (.verdict true) ∧
      (solo []).answer [(0, .advance 141)] 0 (.require 135) = .ok .done ∧
      ¬((solo []).paramsOf 0).WithinSteps 130 135 := by
  refine ⟨by decide +kernel, by decide +kernel, by decide +kernel, ?_⟩
  rintro ⟨k, _, hk⟩
  have hgrid : ((solo []).paramsOf 0).snapshotGrid = 10 := rfl
  rw [hgrid] at hk
  omega

end Network

end DelayedPayout
