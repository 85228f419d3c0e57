import DelayedPayout.Grid

/-!
Snapshot heights among the multiples of the grid. The snapshot height for a chain height is the one
multiple of the grid that lies one to two grid steps below the height that counts
(`gridHeight_eq_ok_iff`, `StepsBack.eq`). So it never falls when a height grows (`StepsBack.mono`), moves
along with both heights by whole grid steps (`StepsBack.shift`), and is the same for two chain heights iff
these count in one window. Main statement: `gridHeight_characterized`.
-/

namespace DelayedPayout

/-! ## One step back -/

/-- A multiple of the grid, one grid step below `base` or up to two steps, but not two of them. -/
structure StepsBack (base grid height : Int) : Prop where
  dvd : grid ∣ height
  lt : base - 2 * grid < height
  le : height ≤ base - grid

theorem liftedHeight_mono {genesis genesis' current current' : Int} (grid : Int)
    (hgenesis : genesis ≤ genesis') (hcurrent : current ≤ current') :
    liftedHeight genesis current grid ≤ liftedHeight genesis' current' grid := by
  unfold liftedHeight
  omega

theorem liftedHeight_add (genesis current grid shift : Int) :
    liftedHeight (genesis + shift) (current + shift) grid =
      liftedHeight genesis current grid + shift := by
  unfold liftedHeight
  omega

namespace StepsBack

variable {base base' grid height height' : Int}

theorem shift (k : Int) (h : StepsBack base grid height) :
    StepsBack (base + k * grid) grid (height + k * grid) := by
  have hlt := h.lt
  have hle := h.le
  exact ⟨Int.dvd_add h.dvd (Int.dvd_mul_left _ _), by omega, by omega⟩

/-- A greater height would be a whole grid step greater, and that is too far up. -/
theorem mono (h : StepsBack base grid height) (h' : StepsBack base' grid height')
    (hbase : base ≤ base') : height ≤ height' := by
  refine Int.not_lt.mp fun hnot => ?_
  have hstep : grid ≤ height - height' :=
    Int.le_of_dvd (by omega) (Int.dvd_sub h.dvd h'.dvd)
  have hlt := h'.lt
  have hle := h.le
  omega

theorem eq (h : StepsBack base grid height) (h' : StepsBack base grid height') : height = height' :=
  Int.le_antisymm (mono h h' (Int.le_refl base)) (mono h' h (Int.le_refl base))

variable (hgrid : 0 < grid)

include hgrid

theorem of_window (base : Int) : StepsBack base grid (base / grid * grid - grid) := by
  have hle := Int.ediv_mul_le base (Int.ne_of_gt hgrid)
  have hlt := Int.lt_ediv_add_one_mul_self base hgrid
  rw [Int.add_mul] at hlt
  exact ⟨Int.dvd_sub (Int.dvd_mul_left _ _) (Int.dvd_refl _), by omega, by omega⟩

theorem iff_eq_window : StepsBack base grid height ↔ height = base / grid * grid - grid := by
  constructor
  · intro h
    exact h.eq (of_window hgrid base)
  · rintro rfl
    exact of_window hgrid base

/-- The same multiple is a step back from two heights iff they lie in one window. -/
theorem iff_window_eq (h : StepsBack base grid height) :
    StepsBack base' grid height ↔ base' / grid = base / grid := by
  rw [(iff_eq_window hgrid).mp h, iff_eq_window hgrid]
  constructor
  · intro heq
    have hmul : base' / grid * grid = base / grid * grid := by omega
    exact Int.eq_of_mul_eq_mul_right (Int.ne_of_gt hgrid) hmul
  · intro heq
    rw [heq]

end StepsBack

/-! ## Snapshot heights -/

theorem gridHeight_of_nonneg {genesis current grid : Int} (hgenesis : 0 ≤ genesis)
    (hcurrent : 0 ≤ current) (hgrid : 0 < grid) :
    gridHeight genesis current grid =
      .ok (liftedHeight genesis current grid / grid * grid - grid) := by
  have hheights : ¬(decide (genesis < 0) || decide (current < 0)) = true := by
    simp only [Bool.or_eq_true, decide_eq_true_eq]
    omega
  rw [gridHeight, if_neg (Int.not_le.mpr hgrid), if_neg hheights]

/-- The heights of a ledger and of a chain tip are natural numbers, and so is a grid in use. -/
theorem gridHeight_natCast (genesis current : Nat) {grid : Nat} (h : 0 < grid) :
    gridHeight genesis current grid =
      .ok (liftedHeight genesis current grid / grid * grid - grid) :=
  gridHeight_of_nonneg (Int.natCast_nonneg _) (Int.natCast_nonneg _) (Int.natCast_pos.mpr h)

theorem gridHeight_eq_ok_iff {genesis current grid height : Int} (hgenesis : 0 ≤ genesis)
    (hcurrent : 0 ≤ current) (hgrid : 0 < grid) :
    gridHeight genesis current grid = .ok height ↔
      StepsBack (liftedHeight genesis current grid) grid height := by
  rw [gridHeight_of_nonneg hgenesis hcurrent hgrid, StepsBack.iff_eq_window hgrid, Except.ok.injEq,
    eq_comm]

/-- **Snapshot heights on the grid.** On any grid two heights have one snapshot height: the only multiple
of the grid that is one grid step below the height that counts, or less than two. It leaves two grid steps
below it and more than one above the genesis, and one behind the tip once that counts itself. It never
falls when a height grows, moves along by whole grid steps, and is that of another tip iff both count in
one window. -/
theorem gridHeight_characterized {genesis current grid : Int} (hgenesis : 0 ≤ genesis)
    (hcurrent : 0 ≤ current) (hgrid : 1 ≤ grid) :
    ∃ height, gridHeight genesis current grid = .ok height ∧
      (∀ other, StepsBack (liftedHeight genesis current grid) grid other ↔ other = height) ∧
      2 * grid ≤ height ∧ genesis + grid < height ∧
      (genesis + 3 * grid ≤ current → height ≤ current - grid) ∧
      (∀ genesis' current', genesis ≤ genesis' → current ≤ current' →
        ∃ height', gridHeight genesis' current' grid = .ok height' ∧ height ≤ height') ∧
      (∀ k, 0 ≤ genesis + k * grid → 0 ≤ current + k * grid →
        gridHeight (genesis + k * grid) (current + k * grid) grid = .ok (height + k * grid)) ∧
      ∀ current', 0 ≤ current' →
        (gridHeight genesis current' grid = .ok height ↔
          liftedHeight genesis current' grid / grid = liftedHeight genesis current grid / grid) := by
  have hpos : 0 < grid := hgrid
  have hback := StepsBack.of_window hpos (liftedHeight genesis current grid)
  generalize liftedHeight genesis current grid / grid * grid - grid = height at hback
  have hlt := hback.lt
  have hle := hback.le
  refine ⟨height, (gridHeight_eq_ok_iff hgenesis hcurrent hpos).mpr hback, ?_, ?_, ?_, ?_, ?_, ?_, ?_⟩
  · intro other
    constructor
    · intro h
      exact h.eq hback
    · rintro rfl
      exact hback
  · -- more than one grid step, and a multiple of the grid
    have hstep : grid ≤ height - grid := by
      apply Int.le_of_dvd _ (Int.dvd_sub hback.dvd (Int.dvd_refl grid))
      unfold liftedHeight at hlt
      omega
    omega
  · unfold liftedHeight at hlt
    omega
  · intro htip
    unfold liftedHeight at hle
    omega
  · intro genesis' current' hgenesis' hcurrent'
    have hback' := StepsBack.of_window hpos (liftedHeight genesis' current' grid)
    refine ⟨_, (gridHeight_eq_ok_iff (by omega) (by omega) hpos).mpr hback', ?_⟩
    exact hback.mono hback' (liftedHeight_mono grid hgenesis' hcurrent')
  · intro k hgenesis' hcurrent'
    rw [gridHeight_eq_ok_iff hgenesis' hcurrent' hpos, liftedHeight_add]
    exact hback.shift k
  · intro current' hcurrent'
    rw [gridHeight_eq_ok_iff hgenesis hcurrent' hpos]
    exact StepsBack.iff_window_eq hpos hback

/-- The grid step below the tip 571779; the tip 571780 is in the next window. -/
theorem gridHeight_characterized_571747 :
    gridHeight 571747 571779 10 = .ok 571760 ∧
      (∀ other, StepsBack 571779 10 other ↔ other = 571760) ∧
      (∃ height, gridHeight 571748 571790 10 = .ok height ∧ 571760 ≤ height) ∧
      gridHeight 7 39 10 = .ok 20 ∧ gridHeight 571747 0 10 = .ok 571760 ∧
      gridHeight 571747 571780 10 ≠ .ok 571760 := by
  have hgenesis : (0 : Int) ≤ 571747 := by decide
  have hcurrent : (0 : Int) ≤ 571779 := by decide
  have hgrid : (1 : Int) ≤ 10 := by decide
  obtain ⟨height, hheight, hunique, _, _, _, hmono, hshift, hwindow⟩ :=
    gridHeight_characterized hgenesis hcurrent hgrid
  cases hheight
  refine ⟨rfl, hunique, hmono 571748 571790 (by decide) (by decide), ?_, ?_, ?_⟩
  · exact hshift (-57174) (by decide) (by decide)
  · exact (hwindow 0 (by decide)).mpr (by decide)
  · intro hsame
    exact absurd ((hwindow 571780 (by decide)).mp hsame) (by decide)

end DelayedPayout
