import DelayedPayout.Keyed
import DelayedPayout.Number.Numeral
import DelayedPayout.WholeNumber

/-!
Candidates for a share of the payout, as they are given and as they are read from untyped records.
-/

namespace DelayedPayout

open Number

/-- A contributor entitled to a part of the payout. The share stands as given until the payout is
split; the address is the latest one, if there ever was one. -/
structure Candidate where
  name : String
  share : Scalar := .real .zero
  address : Option String := none
  deriving DecidableEq

/-- The candidates of a height by key, in the order in which the keys first arrived. -/
abbrev CandidateSet := Keyed String Candidate

/-- The address that can be paid: one that is there and not empty. -/
def Candidate.payee? (c : Candidate) : Option String := c.address.filter (!·.isEmpty)

/-- A share as a binary number: an integer or a binary number from zero to one. An integer has to be
within the range of binary numbers before it is compared. -/
def Scalar.toShare : Scalar → Except Fault Finite64
  | .int n =>
    match Binary64.ofInt? n with
    | none => .error .integerTooLarge
    | some x => if 0 ≤ n && n ≤ 1 then .ok x else .error (.shareOutOfRange (.int n))
  | .real (.finite x) => if x.inUnit then .ok x else .error (.shareOutOfRange (.real (.finite x)))
  | .real x => .error (.shareOutOfRange (.real x))
  | other => .error (.shareNotANumber other)

/-- The binary number that a scalar stands for: the nearest one of an integer, one or zero of a flag,
the one that a text reads as. -/
def Scalar.toBinary64 : Scalar → Except Fault Binary64
  | .int n =>
    match Binary64.ofInt? n with
    | none => .error .integerTooLarge
    | some x => .ok (.finite x)
  | .real x => .ok x
  | .text s =>
    match binary64? s.toList with
    | none => .error (.shareUnreadable s)
    | some x => .ok x
  | .flag true => .ok .one
  | .flag false => .ok .zero
  | .null => .error .shareMissing

/-- A candidate as listed in an untyped record: the share is a number, while name and address are kept
as they stand. -/
structure Listing where
  name : Scalar
  share : Binary64
  address : Scalar
  deriving DecidableEq

/-- Reads a record that maps the names of fields to values. The name must be there; the share is zero
and the address null by default. -/
def Listing.ofRecord (record : String → Option Scalar) : Except Fault Listing :=
  match record "name" with
  | none => .error .nameMissing
  | some name => do
    let share ← ((record "effective_burn_output_share").getD (.real .zero)).toBinary64
    return ⟨name, share, (record "most_recent_address").getD .null⟩

end DelayedPayout
