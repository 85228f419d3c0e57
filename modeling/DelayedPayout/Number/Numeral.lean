import DelayedPayout.Number.Binary64
import DelayedPayout.Number.DigitLimit
import DelayedPayout.Text.Blank
import DelayedPayout.Text.Digit

/-!
Numerals: the texts that stand for whole numbers and for binary numbers. Digits may be of any script,
and a single underscore may stand between two of them.
-/

namespace DelayedPayout.Number

open DelayedPayout.Text

/-- The values of the digits of a text that is nothing else: at least one digit, and single underscores
only between digits. -/
def digits? : List Char → Option (List Nat)
  | [] => none
  | [c] => (digitValue? c).map ([·])
  | c :: '_' :: rest => do return (← digitValue? c) :: (← digits? rest)
  | c :: next :: rest => do return (← digitValue? c) :: (← digits? (next :: rest))

/-- The number that digits stand for, the most significant one first. -/
def ofDigits (digits : List Nat) : Nat := digits.foldl (fun n d => 10 * n + d) 0

/-- Whether a minus sign stands first, and the text behind a sign. -/
def signed : List Char → Bool × List Char
  | '-' :: rest => (true, rest)
  | '+' :: rest => (false, rest)
  | rest => (false, rest)

/-- The whole number that a text stands for: an optional sign, then digits. -/
def integer? (s : List Char) : Option Int := do
  let (negative, rest) := signed s
  let digits ← digits? rest
  if maxDigits < digits.length then none
  else return if negative then -(ofDigits digits : Int) else ofDigits digits

structure Numeral where
  negative : Bool
  /-- The digits before the point and behind it. -/
  digits : List Nat
  /-- How many of them stand behind the point. -/
  places : Nat
  /-- The written exponent, zero if there is none. -/
  exponent : Int

/-- The text before the first character of a class, and the text behind it if there is one. -/
def splitAt? (mark : Char → Bool) (s : List Char) : List Char × Option (List Char) :=
  match s.dropWhile (!mark ·) with
  | [] => (s, none)
  | _ :: rest => (s.takeWhile (!mark ·), some rest)

def optionalDigits? (s : List Char) : Option (List Nat) := if s.isEmpty then some [] else digits? s

/-- The exponent as written behind its mark: an optional sign, then digits. -/
def exponent? : Option (List Char) → Option Int
  | none => some 0
  | some s => do
    let (negative, rest) := signed s
    let digits ← digits? rest
    return if negative then -(ofDigits digits : Int) else ofDigits digits

/-- The parts of a text that is a decimal numeral: digits with an optional point before, between or
behind them, then an optional exponent. -/
def Numeral.ofText? (s : List Char) : Option Numeral := do
  let (negative, rest) := signed s
  let (significand, exponentText) := splitAt? (fun c => c == 'e' || c == 'E') rest
  let (wholeText, fractionText) := splitAt? (· == '.') significand
  let whole ← optionalDigits? wholeText
  let fraction ← optionalDigits? (fractionText.getD [])
  let exponent ← exponent? exponentText
  if (whole ++ fraction).isEmpty then none
  else return ⟨negative, whole ++ fraction, fraction.length, exponent⟩

/-- The binary number nearest to a numeral. A leading digit far outside the range of the format decides
the number by itself, whatever the length of its exponent. -/
def Numeral.toBinary64 (n : Numeral) : Binary64 :=
  let coefficient := ofDigits n.digits
  let exponent := n.exponent - (n.places : Int)
  let leading := (digitCount 10 coefficient : Int) + exponent
  if coefficient = 0 || leading < -330 then Binary64.rounded n.negative 0
  else if 310 < leading then .infinite n.negative
  else Binary64.rounded n.negative (Scaled.value 10 ⟨coefficient, exponent⟩)

/-- The binary number that a text stands for: white space around it is dropped, and the words for what
is infinite or no number are read in letters of any case. -/
def binary64? (s : List Char) : Option Binary64 :=
  let body := strip isWhiteSpace s
  let (negative, word) := signed body
  let word := word.map Char.toLower
  if word = ['i', 'n', 'f'] || word = ['i', 'n', 'f', 'i', 'n', 'i', 't', 'y'] then
    some (.infinite negative)
  else if word = ['n', 'a', 'n'] then some .nan
  else (Numeral.ofText? body).map Numeral.toBinary64

end DelayedPayout.Number
