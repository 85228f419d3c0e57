import DelayedPayout.Number.Shortest

/-!
How a number is laid out as text, once its digits are chosen: positionally while the exponent of the
leading digit is in a range, otherwise with an exponent of its own.
-/

namespace DelayedPayout.Number

structure Layout where
  /-- The least exponent of the leading digit that is written positionally. -/
  plainFrom : Int
  /-- The least exponent above those that are written positionally. -/
  plainBelow : Int
  /-- The least count of digits of a written exponent. -/
  exponentWidth : Nat
  nan : String
  infinity : String

def decimalDigits (n : Nat) : List Char := Nat.toDigits 10 n

def dropFinalZeros (digits : List Char) : List Char :=
  (digits.reverse.dropWhile (· == '0')).reverse

/-- Digits behind the leading zeros that fill a width. -/
def padLeft (width : Nat) (digits : List Char) : List Char :=
  List.replicate (width - digits.length) '0' ++ digits

namespace Layout

/-- Digits with the point in front of position `point`: at least one digit stands on either side. -/
def positional (digits : List Char) (point : Int) : List Char :=
  let whole := digits.take point.toNat
  let missing := List.replicate (point.toNat - digits.length) '0'
  let fraction := List.replicate (-point).toNat '0' ++ digits.drop point.toNat
  (if whole.isEmpty then ['0'] else whole ++ missing) ++ '.' ::
    (if fraction.isEmpty then ['0'] else fraction)

/-- Digits with the point behind the first, and the power of ten that this leaves. -/
def scientific (layout : Layout) (digits : List Char) (exponent : Int) : List Char :=
  let sign := if exponent < 0 then '-' else '+'
  let significand := match digits with
    | first :: second :: rest => first :: '.' :: second :: rest
    | _ => digits
  significand ++ 'e' :: sign :: padLeft layout.exponentWidth (decimalDigits exponent.natAbs)

def decimal (layout : Layout) (d : Scaled) : List Char :=
  let written := decimalDigits d.coefficient
  let digits := dropFinalZeros written
  let leading := d.exponent + (written.length : Int) - 1
  if layout.plainFrom ≤ leading && leading < layout.plainBelow then positional digits (leading + 1)
  else layout.scientific digits leading

/-- The text of a number: its sign, and its shortest decimal. -/
def render (layout : Layout) : Binary64 → String
  | .nan => layout.nan
  | .infinite negative => (if negative then "-" else "") ++ layout.infinity
  | .finite x =>
    let digits := if x.size.coefficient = 0 then ['0', '.', '0'] else layout.decimal x.shortest
    String.ofList (if x.negative then '-' :: digits else digits)

end Layout

end DelayedPayout.Number
