import DelayedPayout.Proofs.Network.SelectionHeight

/-!
The tolerance for selection heights, in terms of the chain tips behind them. A selection height lies one
grid step below the window of its tip, so a peer's is accepted iff the windows of the two tips are no
farther apart than steps are tolerated (`Params.accepts_window_iff`). Main statement:
`Network.mutual_acceptance`.
-/

namespace DelayedPayout

open Number

/-! ## Windows -/

section Window

variable {a b : Int} {grid k : Nat} (hgrid : 0 < grid)

include hgrid

theorem window_le_add (h : a ≤ b + k * grid) : a / grid ≤ b / grid + k :=
  calc
    a / grid ≤ (b + k * grid) / grid := Int.ediv_le_ediv (Int.natCast_pos.mpr hgrid) h
    _ = b / grid + k := Int.add_mul_ediv_right b k (Int.natCast_ne_zero.mpr (Nat.ne_of_gt hgrid))

theorem add_le_window (h : b + k * grid ≤ a) : b / grid + k ≤ a / grid :=
  calc
    b / grid + k = (b + k * grid) / grid :=
      (Int.add_mul_ediv_right b k (Int.natCast_ne_zero.mpr (Nat.ne_of_gt hgrid))).symm
    _ ≤ a / grid := Int.ediv_le_ediv (Int.natCast_pos.mpr hgrid) h

/-- Heights that are `k` grid steps apart or less are `k` windows apart or less. -/
theorem natAbs_window_sub_le (h : (a - b).natAbs ≤ k * grid) : (a / grid - b / grid).natAbs ≤ k := by
  have hle := window_le_add hgrid (show a ≤ b + k * grid by omega)
  have hge := window_le_add hgrid (show b ≤ a + k * grid by omega)
  omega

/-- Heights that are `k` grid steps apart or more are `k` windows apart or more. -/
theorem le_natAbs_window_sub (h : k * grid ≤ (a - b).natAbs) : k ≤ (a / grid - b / grid).natAbs := by
  rcases Int.le_total a b with hab | hab
  · have := add_le_window hgrid (show a + k * grid ≤ b by omega)
    omega
  · have := add_le_window hgrid (show b + k * grid ≤ a by omega)
    omega

end Window

theorem natAbs_liftedHeight_sub_le (genesis current current' grid : Int) :
    (liftedHeight genesis current grid - liftedHeight genesis current' grid).natAbs ≤
      (current - current').natAbs := by
  unfold liftedHeight
  omega

/-- The selection height of a window: one grid step below its first height. -/
def windowHeight (grid : Nat) (window : Int) : Int := window * grid - grid

theorem selectionHeight_eq_windowHeight (params : Params) (ledger : Ledger) (tip : ChainTip) :
    selectionHeight params ledger tip = .ok (windowHeight params.snapshotGrid
      (liftedHeight ledger.genesis tip.height params.snapshotGrid / params.snapshotGrid)) :=
  gridHeight_natCast _ _ params.snapshotGrid_pos

/-- The selection height of a peer is accepted iff its window is within the tolerated steps of ours. -/
theorem Params.accepts_window_iff (params : Params) (w w' : Int) :
    params.accepts (windowHeight params.snapshotGrid w) (windowHeight params.snapshotGrid w') = true ↔
      (w - w').natAbs ≤ params.selectionHeightToleranceGrids := by
  rw [accepts_iff, ← natAbs_steps_le_iff, windowHeight, windowHeight, Int.sub_mul]
  have hsame : (w * params.snapshotGrid - params.snapshotGrid -
      (w' * params.snapshotGrid - params.snapshotGrid) : Int) =
        w * params.snapshotGrid - w' * params.snapshotGrid := by omega
  rw [hsame]

namespace Network

variable {tips meters parties tips' meters' parties' : Nat} {net : Network tips meters parties}
  {net' : Network tips' meters' parties'} {i : Fin parties} {j : Fin parties'}
  {history : List (Fin parties × Request)} {history' : List (Fin parties' × Request)}
  {ours peer : Int}

/-! ## Acceptance -/

/-- A party accepts a peer's selection height: it says so, and does not refuse it. -/
def Accepts (net : Network tips meters parties) (history : List (Fin parties × Request))
    (i : Fin parties) (peer : Int) : Prop :=
  net.answer history i (.acceptable peer) = .ok (.verdict true) ∧
    net.answer history i (.require peer) = .ok .done

/-- A party with the selection height `ours` rejects a peer's: it says so, and refuses it. -/
def Rejects (net : Network tips meters parties) (history : List (Fin parties × Request))
    (i : Fin parties) (ours peer : Int) : Prop :=
  net.answer history i (.acceptable peer) = .ok (.verdict false) ∧
    net.answer history i (.require peer) =
      if Writable ours ∧ Writable peer then .error (.selectionHeightMismatch ours peer)
      else .error .tooManyDigits

theorem accepts_iff_of_selectionHeight (h : (net.after history).selectionHeight i = .ok ours) :
    net.Accepts history i peer ↔ (net.paramsOf i).accepts ours peer = true := by
  rw [Accepts, answer_acceptable h, answer_require h]
  cases (net.paramsOf i).accepts ours peer <;> simp

theorem rejects_of_not_accepts (h : (net.after history).selectionHeight i = .ok ours)
    (hnot : (net.paramsOf i).accepts ours peer = false) : net.Rejects history i ours peer := by
  rw [Rejects, answer_acceptable h, answer_require h, hnot]
  exact ⟨rfl, if_neg Bool.false_ne_true⟩

theorem selectionHeight_after_eq {genesis grid current : Nat}
    (hgenesis : (net.ledgerOf i).genesis = genesis) (hgrid : (net.paramsOf i).snapshotGrid = grid)
    (htip : ((net.after history).tipOf i).height = current) :
    (net.after history).selectionHeight i =
      .ok (windowHeight grid (liftedHeight genesis current grid / grid)) := by
  rw [selectionHeight_eq, paramsOf_after, ledgerOf_after, selectionHeight_eq_windowHeight, hgenesis,
    hgrid, htip]

/-- The selection height of a peer with the same grid is accepted iff its window is within the tolerated
steps of ours. -/
theorem accepts_windowHeight_iff {grid : Nat} {w w' : Int} (hgrid : (net.paramsOf i).snapshotGrid = grid)
    (h : (net.after history).selectionHeight i = .ok (windowHeight grid w)) :
    net.Accepts history i (windowHeight grid w') ↔
      (w - w').natAbs ≤ (net.paramsOf i).selectionHeightToleranceGrids := by
  rw [accepts_iff_of_selectionHeight h, ← hgrid, Params.accepts_window_iff]

theorem rejects_windowHeight {grid : Nat} {w w' : Int} (hgrid : (net.paramsOf i).snapshotGrid = grid)
    (h : (net.after history).selectionHeight i = .ok (windowHeight grid w))
    (hlt : (net.paramsOf i).selectionHeightToleranceGrids < (w - w').natAbs) :
    net.Rejects history i (windowHeight grid w) (windowHeight grid w') := by
  apply rejects_of_not_accepts h
  rw [← Bool.not_eq_true, ← hgrid, Params.accepts_window_iff]
  omega

/-- **Mutual acceptance.** Of two parties with the same genesis height, grid and tolerance each accepts
the selection height of the other if their tips are no farther apart than the tolerance, and rejects it
if the heights that count are apart by one grid step more. Without tolerance each accepts the other's
iff those heights lie in one window. -/
theorem mutual_acceptance (net : Network tips meters parties) (net' : Network tips' meters' parties')
    (history : List (Fin parties × Request)) (history' : List (Fin parties' × Request))
    (i : Fin parties) (j : Fin parties') {genesis grid tolerance current current' : Nat}
    (hgenesis : (net.ledgerOf i).genesis = genesis ∧ (net'.ledgerOf j).genesis = genesis)
    (hgrid : (net.paramsOf i).snapshotGrid = grid ∧ (net'.paramsOf j).snapshotGrid = grid)
    (htolerance : (net.paramsOf i).selectionHeightToleranceGrids = tolerance ∧
      (net'.paramsOf j).selectionHeightToleranceGrids = tolerance)
    (htip : ((net.after history).tipOf i).height = current ∧
      ((net'.after history').tipOf j).height = current') :
    ∃ ours theirs,
      net.answer history i .selectionHeight = .ok (.height ours) ∧
      net'.answer history' j .selectionHeight = .ok (.height theirs) ∧
      (((current : Int) - current').natAbs ≤ tolerance * grid →
        net.Accepts history i theirs ∧ net'.Accepts history' j ours) ∧
      ((tolerance + 1) * grid ≤
          (liftedHeight genesis current grid - liftedHeight genesis current' grid).natAbs →
        net.Rejects history i ours theirs ∧ net'.Rejects history' j theirs ours) ∧
      (tolerance = 0 →
        (net.Accepts history i theirs ↔
          liftedHeight genesis current grid / grid = liftedHeight genesis current' grid / grid) ∧
        (net'.Accepts history' j ours ↔
          liftedHeight genesis current grid / grid = liftedHeight genesis current' grid / grid)) := by
  have hpos : 0 < grid := hgrid.1 ▸ (net.paramsOf i).snapshotGrid_pos
  have hours := selectionHeight_after_eq hgenesis.1 hgrid.1 htip.1
  have htheirs := selectionHeight_after_eq hgenesis.2 hgrid.2 htip.2
  have hlift := natAbs_liftedHeight_sub_le genesis current current' grid
  refine ⟨_, _, answer_selectionHeight hours, answer_selectionHeight htheirs, ?_⟩
  rw [accepts_windowHeight_iff hgrid.1 hours, accepts_windowHeight_iff hgrid.2 htheirs, htolerance.1,
    htolerance.2]
  generalize liftedHeight genesis current grid = lifted at hlift hours ⊢
  generalize liftedHeight genesis current' grid = lifted' at hlift htheirs ⊢
  refine ⟨?_, ?_, ?_⟩
  · intro hle
    have hwindows := natAbs_window_sub_le hpos (Nat.le_trans hlift hle)
    omega
  · intro hge
    have hwindows := le_natAbs_window_sub hpos hge
    constructor
    · apply rejects_windowHeight hgrid.1 hours
      omega
    · apply rejects_windowHeight hgrid.2 htheirs
      omega
  · intro hzero
    omega

/-- On either side of a grid boundary the tips 139 and 141 are one step apart; 170 is too far. -/
theorem mutual_acceptance_at_boundary :
    ((solo []).Accepts [(0, .advance 139)] 0 130 ∧ (solo []).Accepts [(0, .advance 141)] 0 120) ∧
      ((solo []).Rejects [(0, .advance 139)] 0 120 160 ∧
        (solo []).Rejects [(0, .advance 170)] 0 160 120) := by
  have h139 : (solo []).answer [(0, .advance 139)] 0 .selectionHeight = .ok (.height 120) ∧
      (((solo []).after [(0, .advance 139)]).tipOf 0).height = 139 := by
    decide +kernel
  have h141 : (solo []).answer [(0, .advance 141)] 0 .selectionHeight = .ok (.height 130) ∧
      (((solo []).after [(0, .advance 141)]).tipOf 0).height = 141 := by
    decide +kernel
  have h170 : (solo []).answer [(0, .advance 170)] 0 .selectionHeight = .ok (.height 160) ∧
      (((solo []).after [(0, .advance 170)]).tipOf 0).height = 170 := by
    decide +kernel
  constructor
  · obtain ⟨ours, theirs, hours, htheirs, haccept, _⟩ := mutual_acceptance
      (solo []) (solo []) [(0, .advance 139)] [(0, .advance 141)] 0 0 ⟨rfl, rfl⟩ ⟨rfl, rfl⟩ ⟨rfl, rfl⟩
      ⟨h139.2, h141.2⟩
    rw [h139.1] at hours
    cases hours
    rw [h141.1] at htheirs
    cases htheirs
    exact haccept (by decide)
  · obtain ⟨ours, theirs, hours, htheirs, _, hreject, _⟩ := mutual_acceptance
      (solo []) (solo []) [(0, .advance 139)] [(0, .advance 170)] 0 0 ⟨rfl, rfl⟩ ⟨rfl, rfl⟩ ⟨rfl, rfl⟩
      ⟨h139.2, h170.2⟩
    rw [h139.1] at hours
    cases hours
    rw [h170.1] at htheirs
    cases htheirs
    exact hreject (by decide)

end Network

end DelayedPayout
