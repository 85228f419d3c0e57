import DelayedPayout.Payout.Basic
import DelayedPayout.Payout.Trim
import DelayedPayout.Candidate

/-!
Splitting an amount among candidates. Both parties do this on their own and must get the same outputs:

* a candidate without an address is skipped;
* an output is the share of the amount, rounded half up, and is dropped below the least output amount;
* outputs stand in ascending order; an excess from rounding is trimmed off the largest;
* a remainder above a threshold goes to the fallback address, as the last output.

Without candidates the fallback address gets everything. The address is asked for only when it is needed,
and `Split` counts how often.
-/

namespace DelayedPayout

open Number

inductive Entitlement where
  | unaddressed
  | dust
  | output (receiver : Receiver)
  deriving DecidableEq, Repr

/-- What a candidate comes to out of an amount. The share is checked first, address or not. -/
def Candidate.entitlement (spendable minOutput : Int) (c : Candidate) : Except Fault Entitlement := do
  let share ← c.share.toShare
  match c.payee? with
  | none => return .unaddressed
  | some address =>
    match Binary64.ofInt? spendable with
    | none => .error .integerTooLarge
    | some whole =>
      let amount ← wholeNumber (share.mul whole)
      return if amount < minOutput then .dust else .output ⟨amount, address⟩

def Entitlement.receiver? : Entitlement → Option Receiver
  | .output r => some r
  | _ => none

/-- A payout that lacks at most the output of the fallback address. -/
structure Draft where
  payout : Payout
  /-- The amount that the fallback address is to get, if it is to get one. -/
  forFallback : Option Int
  /-- The integers that the closing line names, other than counts. The lines about trimming name none that
  is greater than the count of outputs. -/
  reported : List Int
  deriving DecidableEq, Repr

/-- The draft without candidates: the fallback address gets everything. -/
def Draft.withoutCandidates (spendable : Int) : Draft where
  payout := { spendable, fallbackOnly := true }
  forFallback := some spendable
  reported := []

/-- The draft for rounded outputs in their order. An excess of more than one satoshi an output is no
matter of rounding. -/
def Draft.ofOutputs (spendable minOutput threshold skipped dust : Int) (outputs : List Receiver) :
    Except Fault Draft :=
  let excess := Receiver.total outputs - spendable
  if (outputs.length : Int) < excess then .error (.sharesExceedWhole excess)
  else
    let trimmed := trim minOutput excess outputs.reverse
    let remainder := -trimmed.excess
    let toFallback := decide (0 < remainder) && decide (threshold < remainder)
    .ok
      { payout :=
          { receivers := trimmed.descending.reverse
            spendable
            skipped
            dust := dust + trimmed.dropped
            remainder
            remainderToFallback := toFallback
            roundingExcess := max 0 excess }
        forFallback := if toFallback then some remainder else none
        reported := [remainder] }

def Draft.ofCandidates (candidates : List Candidate) (spendable minOutput threshold : Int) :
    Except Fault Draft := do
  if spendable < 0 then .error (.negativeSpendable spendable)
  else if minOutput < 0 then .error (.negativeMinOutput minOutput)
  else if candidates.isEmpty then return .withoutCandidates spendable
  else
    let entitlements ← candidates.mapM (Candidate.entitlement spendable minOutput)
    ofOutputs spendable minOutput threshold (entitlements.count .unaddressed)
      (entitlements.count .dust) (Receiver.sort (entitlements.filterMap Entitlement.receiver?))

/-- The outcome of splitting, and how often the fallback address was asked for. -/
structure Split where
  outcome : Except Fault Payout
  asked : Nat

def Draft.close (draft : Draft) (payout : Payout) : Except Fault Payout := do
  report draft.reported
  return payout

/-- Completes a draft with the answer to the question for the fallback address. -/
def Draft.settle (draft : Draft) (fallback : Option String) : Split :=
  match draft.forFallback with
  | none => ⟨draft.close draft.payout, 0⟩
  | some amount =>
    match fallback.filter (!·.isEmpty) with
    | none => ⟨.error .noFallbackAddress, 1⟩
    | some address =>
      let receivers := draft.payout.receivers ++ [⟨amount, address⟩]
      ⟨draft.close { draft.payout with receivers }, 1⟩

/-- Splits an amount among candidates. `fallback` is the answer to the question for the fallback
address. -/
def split (candidates : List Candidate) (spendable minOutput threshold : Int)
    (fallback : Option String) : Split :=
  match Draft.ofCandidates candidates spendable minOutput threshold with
  | .error fault => ⟨.error fault, 0⟩
  | .ok draft => draft.settle fallback

end DelayedPayout
