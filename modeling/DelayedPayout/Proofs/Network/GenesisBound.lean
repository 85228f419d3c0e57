import DelayedPayout.Proofs.Network.SelectionHeight

/-!
How far selection heights stay from the genesis. A chain height is lifted to three grid steps above the
genesis first and cut down to the grid then, so the steps that remain are counted from the window of the
genesis (`KeepsOff.window_le`). Two of them remain above the genesis itself iff it stands on the grid, or
the chain has reached the fourth window above it (`KeepsOff.le_iff`). Main statement:
`Network.selection_keeps_off_genesis`.
-/

namespace DelayedPayout

/-- How far a snapshot height for the chain height `current` stays from the genesis. -/
structure KeepsOff (genesis current grid height : Int) : Prop where
  /-- It is at least two grid steps above the window of the genesis. -/
  window_le : (genesis / grid + 2) * grid ≤ height
  /-- It is more than one grid step above the genesis. -/
  lt : genesis + grid < height
  /-- It is two grid steps above the genesis if that is on the grid, and otherwise once the chain has
  reached the fourth window above that of the genesis. -/
  le_iff : genesis + 2 * grid ≤ height ↔ grid ∣ genesis ∨ (genesis / grid + 4) * grid ≤ current

section Window

variable {grid : Int} (hgrid : 0 < grid)

include hgrid

/-- The first three windows above that of the genesis are skipped. -/
theorem add_three_le_window (genesis current : Int) :
    genesis / grid + 3 ≤ liftedHeight genesis current grid / grid := by
  rw [← Int.add_mul_ediv_right genesis 3 (Int.ne_of_gt hgrid)]
  exact Int.ediv_le_ediv hgrid (Int.le_max_left _ _)

/-- The lift ends below the fourth window, which is reached by the chain itself or not at all. -/
theorem add_four_le_window_iff (genesis current : Int) :
    genesis / grid + 4 ≤ liftedHeight genesis current grid / grid ↔
      (genesis / grid + 4) * grid ≤ current := by
  have hlift : genesis + 3 * grid < (genesis / grid + 4) * grid := by
    have hlt := Int.lt_ediv_add_one_mul_self genesis hgrid
    rw [Int.add_mul] at hlt ⊢
    omega
  rw [Int.le_ediv_iff_mul_le hgrid, liftedHeight]
  omega

/-- From the third window on, one starts three grid steps above the genesis iff the genesis is on the grid
or the window is the fourth or a later one. -/
theorem add_three_mul_le_iff {genesis window : Int} (hwindow : genesis / grid + 3 ≤ window) :
    genesis + 3 * grid ≤ window * grid ↔ grid ∣ genesis ∨ genesis / grid + 4 ≤ window := by
  have hstart : (genesis / grid + 3) * grid ≤ window * grid :=
    (Int.mul_le_mul_right hgrid).mpr hwindow
  rw [Int.add_mul] at hstart
  by_cases hon : grid ∣ genesis
  · rw [Int.ediv_mul_cancel hon] at hstart
    exact iff_of_true hstart (.inl hon)
  · rw [or_iff_right hon]
    -- off the grid the genesis is above the start of its window, and so is what is three steps above it
    have hrest := (Int.emod_pos_of_not_dvd hon).resolve_left (Int.ne_of_gt hgrid)
    have hsplit := Int.ediv_mul_add_emod genesis grid
    have hlt := Int.emod_lt_of_pos genesis hgrid
    constructor
    · intro hle
      have habove : (genesis / grid + 3) * grid < window * grid := by
        rw [Int.add_mul]
        omega
      have := (Int.mul_lt_mul_right hgrid).mp habove
      omega
    · intro hfourth
      have hstart : (genesis / grid + 4) * grid ≤ window * grid :=
        (Int.mul_le_mul_right hgrid).mpr hfourth
      rw [Int.add_mul] at hstart
      omega

theorem keepsOff_window (genesis current : Int) :
    KeepsOff genesis current grid (liftedHeight genesis current grid / grid * grid - grid) := by
  have hthird := add_three_le_window hgrid genesis current
  have hle := add_three_mul_le_iff hgrid hthird
  rw [add_four_le_window_iff hgrid] at hle
  generalize liftedHeight genesis current grid / grid = window at hthird hle ⊢
  have hstart : (genesis / grid + 3) * grid ≤ window * grid :=
    (Int.mul_le_mul_right hgrid).mpr hthird
  have hlt := Int.lt_ediv_add_one_mul_self genesis hgrid
  rw [Int.add_mul] at hstart hlt
  refine ⟨?_, by omega, ?_⟩
  · rw [Int.add_mul]
    omega
  · rw [← hle]
    omega

theorem exists_gridHeight_keepsOff {genesis current : Int} (hgenesis : 0 ≤ genesis)
    (hcurrent : 0 ≤ current) :
    ∃ height, gridHeight genesis current grid = .ok height ∧ KeepsOff genesis current grid height :=
  ⟨_, gridHeight_of_nonneg hgenesis hcurrent hgrid, keepsOff_window hgrid genesis current⟩

end Window

namespace Network

variable {tips meters parties : Nat}

/-- **How far selection heights stay from the genesis.** On any grid a snapshot height is more than one
grid step above the genesis, and so is the selection height of a party, whatever has happened. It is two
steps above it iff the genesis is on the grid or the chain has reached the fourth window above that of the
genesis. -/
theorem selection_keeps_off_genesis (net : Network tips meters parties)
    (history : List (Fin parties × Request)) (i : Fin parties) :
    (∀ genesis current grid : Int, 0 ≤ genesis → 0 ≤ current → 1 ≤ grid →
      ∃ height, gridHeight genesis current grid = .ok height ∧
        KeepsOff genesis current grid height) ∧
    ∃ ours, net.answer history i .selectionHeight = .ok (.height ours) ∧
      KeepsOff (net.ledgerOf i).genesis ((net.after history).tipOf i).height
        (net.paramsOf i).snapshotGrid ours := by
  constructor
  · intro genesis current grid hgenesis hcurrent hgrid
    exact exists_gridHeight_keepsOff hgrid hgenesis hcurrent
  · have hgrid := Int.natCast_pos.mpr (net.paramsOf i).snapshotGrid_pos
    have hgenesis := Int.natCast_nonneg (net.ledgerOf i).genesis
    have hcurrent := Int.natCast_nonneg ((net.after history).tipOf i).height
    obtain ⟨ours, hours, hoff⟩ := exists_gridHeight_keepsOff hgrid hgenesis hcurrent
    refine ⟨ours, answer_selectionHeight ?_, hoff⟩
    rw [selectionHeight_eq, paramsOf_after, ledgerOf_after]
    exact hours

/-- A party whose ledger starts off the grid. -/
def offGrid : Network 1 1 1 :=
  { solo [] with
    party := #v[⟨.standard, { lasting "fallback" with genesis := 571747 }, Fin.last 0, Fin.last 0⟩] }

/-- The fourth window above that of the genesis starts at the height 571780. -/
theorem selection_keeps_off_genesis_571747 :
    offGrid.answer [(0, .advance 571779)] 0 .selectionHeight = .ok (.height 571760) ∧
      571747 + 10 < (571760 : Int) ∧
      offGrid.answer [(0, .advance 571780)] 0 .selectionHeight = .ok (.height 571770) ∧
      571747 + 2 * 10 ≤ (571770 : Int) ∧
      ∃ height, gridHeight 571750 0 10 = .ok height ∧ 571750 + 2 * 10 ≤ height := by
  have hbelow : offGrid.answer [(0, .advance 571779)] 0 .selectionHeight = .ok (.height 571760) := by
    decide +kernel
  have habove : offGrid.answer [(0, .advance 571780)] 0 .selectionHeight = .ok (.height 571770) := by
    decide +kernel
  obtain ⟨_, _, hours, hoff⟩ := selection_keeps_off_genesis offGrid [(0, .advance 571779)] 0
  rw [hbelow] at hours
  cases hours
  obtain ⟨hall, _, hours', hoff'⟩ := selection_keeps_off_genesis offGrid [(0, .advance 571780)] 0
  rw [habove] at hours'
  cases hours'
  obtain ⟨height, hheight, hon⟩ := hall 571750 0 10 (by decide) (by decide) (by decide)
  have hafter : ((offGrid.after [(0, .advance 571780)]).tipOf 0).height = 571780 := by decide +kernel
  have hfourth := hoff'.le_iff.mpr (.inr (by rw [hafter]; decide))
  exact ⟨hbelow, hoff.lt, habove, hfourth, height, hheight, hon.le_iff.mpr (.inl (by decide))⟩

/-- Before that the selection height is too close to the genesis. -/
theorem selection_within_two_steps_of_genesis :
    gridHeight 571747 571779 10 = .ok 571760 ∧
      offGrid.answer [(0, .advance 571779)] 0 .selectionHeight = .ok (.height 571760) ∧
      ¬(571747 + 2 * 10 ≤ (571760 : Int)) := by
  refine ⟨rfl, by decide +kernel, by decide⟩

end Network

end DelayedPayout
