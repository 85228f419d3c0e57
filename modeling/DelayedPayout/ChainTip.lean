import DelayedPayout.Fault

/-!
The latest observed height of the chain, as it is notified block by block.
-/

namespace DelayedPayout

/-- The latest observed chain height, and how often it was notified. A lower height than before, after
a reorganization of the chain, is taken as well. -/
structure ChainTip where
  height : Nat
  updates : Nat
  deriving DecidableEq, Repr

namespace ChainTip

def start (height : Int) : Except Fault ChainTip :=
  if height < 0 then .error (.negativeInitialHeight height) else .ok ⟨height.toNat, 0⟩

def origin : ChainTip := ⟨0, 0⟩

def advance (tip : ChainTip) (height : Int) : Except Fault ChainTip :=
  if height < 0 then .error (.negativeChainHeight height)
  else .ok ⟨height.toNat, tip.updates + 1⟩

/-- The integers that the line about a notification names: the new height, and the old one as well when
the chain goes back. -/
def reported (tip : ChainTip) (height : Int) : List Int :=
  if height < tip.height then [tip.height, height] else [height]

/-- Takes a notification and answers with the height before it. The tip moves before the line about that is
written, and has moved if the line cannot be. -/
def notify (tip : ChainTip) (height : Int) : Except Fault Nat × ChainTip :=
  match tip.advance height with
  | .error fault => (.error fault, tip)
  | .ok next => (do report (tip.reported height); return tip.height, next)

theorem notify_of_neg (tip : ChainTip) {height : Int} (h : height < 0) :
    tip.notify height = (.error (.negativeChainHeight height), tip) := by
  rw [notify, advance, if_pos h]

theorem notify_of_nonneg (tip : ChainTip) {height : Int} (h : 0 ≤ height) :
    tip.notify height =
      (do report (tip.reported height); return tip.height, ⟨height.toNat, tip.updates + 1⟩) := by
  rw [notify, advance, if_neg (Int.not_lt.mpr h)]

end ChainTip

end DelayedPayout
