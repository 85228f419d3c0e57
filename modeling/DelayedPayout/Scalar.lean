import DelayedPayout.Number.Layout
import DelayedPayout.Text.Quoted

/-!
Values of untyped settings and records, and their text in messages.
-/

namespace DelayedPayout

open Number

/-- A value whose kind is known only once it is looked at. -/
inductive Scalar where
  | int (n : Int)
  | real (x : Binary64)
  | text (s : String)
  | flag (b : Bool)
  | null
  deriving DecidableEq

/-- Numbers stand positionally from four places behind the point up to sixteen before it, and beyond
with an exponent of two digits or more. -/
def numberLayout : Layout where
  plainFrom := -4
  plainBelow := 16
  exponentWidth := 2
  nan := "nan"
  infinity := "inf"

def Scalar.written : Scalar → String
  | .int n => toString n
  | .real x => numberLayout.render x
  | .text s => Text.quoted s
  | .flag true => "True"
  | .flag false => "False"
  | .null => "None"

def Scalar.named : Scalar → List Int
  | .int n => [n]
  | _ => []

end DelayedPayout
