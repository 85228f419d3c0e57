import DelayedPayout.Fault
import DelayedPayout.Timeline

/-!
The ledger as the payout sees it: its genesis height, and the history of the fallback address.
-/

namespace DelayedPayout

/-- A genesis height, and fallback addresses from the heights on at which they apply. -/
structure Ledger where
  genesis : Nat
  history : Timeline (Option String)
  history_ne : history.entries ≠ []

namespace Ledger

/-- The ledger with these fallback addresses; the last address given for a height counts. -/
def ofEntries (genesis : Int) (entries : List (Int × Option String)) : Except Fault Ledger :=
  if genesis < 0 then .error (.negativeGenesis genesis)
  else
    let history := Timeline.ofList entries
    if h : history.entries = [] then .error .noFallbackHistory
    else .ok ⟨genesis.toNat, history, h⟩

/-- The fallback address at a height. Before the first change, and where none is recorded, the first
address applies. -/
def fallbackAt (ledger : Ledger) (height : Int) : Option String :=
  match ledger.history.valueAt? height with
  | some (some address) => some address
  | _ => (ledger.history.entries.head ledger.history_ne).2

end Ledger

end DelayedPayout
