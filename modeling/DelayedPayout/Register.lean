import DelayedPayout.Candidate
import DelayedPayout.Timeline

/-!
Candidate sets by the height from which they apply. A set is registered once for a height.
-/

namespace DelayedPayout

structure Register where
  sets : Timeline CandidateSet

namespace Register

/-- The register of initial rows; the last set given for a height counts. -/
def ofRows (rows : List (Int × CandidateSet)) : Register := ⟨Timeline.ofList rows⟩

/-- The register with one more set, unless its height has one already. -/
def add (register : Register) (height : Int) (candidates : CandidateSet) : Except Fault Register :=
  if register.sets.isSetAt height then .error (.heightTaken height)
  else .ok ⟨register.sets.set height candidates⟩

/-- Registers a set. It is in force before the line about it is written, whether or not the line can
be. -/
def announce (register : Register) (height : Int) (candidates : CandidateSet) :
    Except Fault Unit × Register :=
  match register.add height candidates with
  | .error fault => (.error fault, register)
  | .ok next => (report [height], next)

theorem announce_of_isSetAt {register : Register} {height : Int} (candidates : CandidateSet)
    (h : register.sets.isSetAt height = true) :
    register.announce height candidates = (.error (.heightTaken height), register) := by
  rw [announce, add, if_pos h]

theorem announce_of_not_isSetAt {register : Register} {height : Int} (candidates : CandidateSet)
    (h : register.sets.isSetAt height = false) :
    register.announce height candidates =
      (report [height], ⟨register.sets.set height candidates⟩) := by
  rw [announce, add, h]
  rfl

/-- The register of initial rows, unless one of them cannot be reported. -/
def start (rows : List (Int × CandidateSet)) : Except Fault Register := do
  report (rows.map Prod.fst)
  return ofRows rows

/-- The candidates at a height: the set of the greatest height up to it, or none. -/
def inForceAt (register : Register) (height : Int) : CandidateSet :=
  (register.sets.valueAt? height).getD .empty

end Register

end DelayedPayout
