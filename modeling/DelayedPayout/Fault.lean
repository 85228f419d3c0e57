import DelayedPayout.Number.DigitLimit
import DelayedPayout.Params.Param
import DelayedPayout.Receiver
import DelayedPayout.Scalar

/-!
Why a computation is refused, and the text that says so. A line on the way, or the text of a refusal,
may name an integer that has too many digits to be written: then this is the refusal (`report`,
`Fault.message`).
-/

namespace DelayedPayout

open Number

inductive Fault where
  /-- A whole number was asked of an infinity, or of what is no number. -/
  | notFinite (x : Binary64)
  /-- An integer is beyond the largest binary number. -/
  | integerTooLarge
  /-- A quotient of integers is beyond the largest binary number. -/
  | quotientTooLarge
  /-- An integer has more digits than can be written. -/
  | tooManyDigits
  | gridNotPositive (grid : Int)
  | negativeHeights (genesis current : Int)
  | negativeInitialHeight (height : Int)
  | negativeChainHeight (height : Int)
  | paramNotAnInteger (p : Param) (value : Scalar)
  | negativeParam (p : Param) (value : Int)
  | zeroParam (p : Param)
  /-- An environment variable is set to a text that is no integer. -/
  | unreadableVariable (p : Param) (raw : String)
  | negativeReferenceFee (fee : Int)
  | negativeFeeRate (rate : Int)
  | negativeOutputCount (count : Int)
  | negativeInput (amount : Int)
  | negativeTradeFee (fee : Int)
  /-- The input amount is less than the fee reserved for so many outputs. -/
  | feeNotCovered (input fee outputs : Int)
  | negativeSpendable (amount : Int)
  | negativeMinOutput (amount : Int)
  | noFallbackAddress
  | shareNotANumber (share : Scalar)
  | shareOutOfRange (share : Scalar)
  /-- The outputs exceed the spendable amount by more than rounding explains. -/
  | sharesExceedWhole (excess : Int)
  | nameMissing
  | shareMissing
  | shareUnreadable (text : String)
  | negativeGenesis (height : Int)
  | noFallbackHistory
  | heightTaken (height : Int)
  | tooFewCells (count : Nat)
  | tooManyCells
  /-- A peer's outputs are not ours. -/
  | receiverMismatch (expected actual : List Receiver)
  /-- A peer's selection height is too far from ours. -/
  | selectionHeightMismatch (ours theirs : Int)
  deriving DecidableEq

namespace Fault

/-- The integers that the text of a refusal names. Counts of list entries and lengths are not listed:
they can always be written. -/
def named : Fault → List Int
  | .gridNotPositive n | .negativeInitialHeight n | .negativeChainHeight n | .negativeReferenceFee n
  | .negativeFeeRate n | .negativeOutputCount n | .negativeInput n | .negativeTradeFee n
  | .negativeSpendable n | .negativeMinOutput n | .sharesExceedWhole n | .negativeGenesis n
  | .heightTaken n | .negativeParam _ n => [n]
  | .negativeHeights genesis current => [genesis, current]
  | .paramNotAnInteger _ value | .shareNotANumber value | .shareOutOfRange value => value.named
  | .feeNotCovered input fee outputs => [input, fee, outputs]
  | .selectionHeightMismatch ours theirs => [theirs, ours]
  | _ => []

/-- The text of a refusal whose integers can be written. -/
def text : Fault → String
  | .notFinite x => s!"Cannot round non-finite value {numberLayout.render x}"
  | .integerTooLarge => "int too large to convert to float"
  | .quotientTooLarge => "integer division result too large for a float"
  | .tooManyDigits =>
    s!"Exceeds the limit ({maxDigits} digits) for integer string conversion; " ++
      "use sys.set_int_max_str_digits() to increase the limit"
  | .gridNotPositive grid => s!"grid must be positive, got {grid}"
  | .negativeHeights genesis current =>
    s!"heights must not be negative (genesis={genesis}, current={current})"
  | .negativeInitialHeight height => s!"initial_height must not be negative, got {height}"
  | .negativeChainHeight height => s!"chain height must not be negative, got {height}"
  | .paramNotAnInteger p value => s!"{p.name} must be an int, got {value.written}"
  | .negativeParam p value => s!"{p.name} must not be negative, got {value}"
  | .zeroParam p => s!"{p.name} must be positive"
  | .unreadableVariable p raw =>
    s!"Invalid {p.environmentVariable}: {Text.quoted raw} is not an integer"
  | .negativeReferenceFee fee => s!"reference fee must not be negative, got {fee}"
  | .negativeFeeRate rate => s!"fee rate must not be negative, got {rate}"
  | .negativeOutputCount count => s!"num_outputs must not be negative, got {count}"
  | .negativeInput amount => s!"input amount must not be negative, got {amount}"
  | .negativeTradeFee fee => s!"trade tx fee must not be negative, got {fee}"
  | .feeNotCovered input fee outputs =>
    s!"input amount {input} does not cover miner fee {fee} for {outputs} outputs"
  | .negativeSpendable amount => s!"spendable amount must not be negative, got {amount}"
  | .negativeMinOutput amount => s!"min output amount must not be negative, got {amount}"
  | .noFallbackAddress => "fallback address resolver returned no address"
  | .shareNotANumber share => s!"burn output share must be a number, got {share.written}"
  | .shareOutOfRange share => s!"burn output share must be within [0, 1], got {share.written}"
  | .sharesExceedWhole excess =>
    s!"receivers exceed spendable amount by {excess} sat; " ++
      "burn output shares must not sum to more than 1"
  | .nameMissing => "'name'"
  | .shareMissing => "float() argument must be a string or a real number, not 'NoneType'"
  | .shareUnreadable text => s!"could not convert string to float: {Text.quoted text}"
  | .negativeGenesis height => s!"genesis must not be negative, got {height}"
  | .noFallbackHistory => "at least one fallback address is required"
  | .heightTaken height => s!"candidates for height {height} already set"
  | .tooFewCells count => s!"not enough values to unpack (expected 2, got {count})"
  | .tooManyCells => "too many values to unpack (expected 2)"
  | .receiverMismatch expected actual =>
    s!"Delayed payout receivers do not match: expected {expected.length} outputs, " ++
      s!"got {actual.length}"
  | .selectionHeightMismatch ours theirs =>
    s!"Burning man selection height {theirs} not accepted (ours: {ours})"

/-- A refusal whose text cannot be written says so instead. -/
def message (fault : Fault) : String :=
  if Reportable fault.named then fault.text else tooManyDigits.text

end Fault

/-- Writes a line that names these integers. Nobody reads it, but one of them may have too many
digits. -/
def report (named : List Int) : Except Fault Unit :=
  if Reportable named then .ok () else .error .tooManyDigits

section Report

variable {named : List Int} {α : Type} {rest : Except Fault α}

theorem report_of_reportable (h : Reportable named) : report named = .ok () := if_pos h

theorem report_of_not_reportable (h : ¬Reportable named) : report named = .error .tooManyDigits :=
  if_neg h

theorem report_eq_error_iff {fault : Fault} :
    report named = .error fault ↔ ¬Reportable named ∧ fault = .tooManyDigits := by
  by_cases h : Reportable named
  · simp [report_of_reportable h, h]
  · simp [report_of_not_reportable h, h, eq_comm]

/-- What stands behind a line is reached only if the line can be written. -/
theorem report_bind (named : List Int) (rest : Except Fault α) :
    (report named >>= fun _ => rest) =
      if Reportable named then rest else .error .tooManyDigits := by
  by_cases h : Reportable named
  · rw [report_of_reportable h, if_pos h]
    rfl
  · rw [report_of_not_reportable h, if_neg h]
    rfl

theorem report_bind_eq_ok_iff {a : α} :
    (report named >>= fun _ => rest) = .ok a ↔ Reportable named ∧ rest = .ok a := by
  rw [report_bind]
  by_cases h : Reportable named <;> simp [h]

end Report

end DelayedPayout
