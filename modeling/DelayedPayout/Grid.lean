import DelayedPayout.Fault

/-!
Snapshot heights. Parties see slightly different chain tips, so each quantizes its height to a grid and
steps one grid back; both land on one height while their tips lie in one window.
-/

namespace DelayedPayout

/-- The chain height that counts: one that is close to the genesis is lifted. -/
def liftedHeight (genesis current grid : Int) : Int := max (genesis + 3 * grid) current

/-- The snapshot height for a chain height: one grid step below the last multiple of the grid. -/
def gridHeight (genesis current grid : Int) : Except Fault Int :=
  if grid ≤ 0 then .error (.gridNotPositive grid)
  else if genesis < 0 || current < 0 then .error (.negativeHeights genesis current)
  else .ok (liftedHeight genesis current grid / grid * grid - grid)

end DelayedPayout
