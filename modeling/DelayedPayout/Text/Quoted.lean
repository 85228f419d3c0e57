import DelayedPayout.Text.Printable

/-!
Quoted text: a quote at either end, and between them every character for itself if it is printable and
neither the quote nor a backslash.
-/

namespace DelayedPayout.Text

/-- Text stands in single quotes, unless it holds one and no double quote. -/
def quoteFor (s : List Char) : Char :=
  if s.contains '\'' && !s.contains '"' then '"' else '\''

/-- A code in so many hexadecimal digits, small letters from ten on. -/
def hexadecimal : Nat → Nat → List Char
  | 0, _ => []
  | width + 1, code => hexadecimal width (code / 16) ++ [Nat.digitChar (code % 16)]

def escape (quote c : Char) : List Char :=
  if c = quote || c = '\\' then ['\\', c]
  else if c = '\t' then ['\\', 't']
  else if c = '\n' then ['\\', 'n']
  else if c = '\r' then ['\\', 'r']
  else if isPrintable c then [c]
  else if c.toNat < 0x100 then '\\' :: 'x' :: hexadecimal 2 c.toNat
  else if c.toNat < 0x10000 then '\\' :: 'u' :: hexadecimal 4 c.toNat
  else '\\' :: 'U' :: hexadecimal 8 c.toNat

def quoted (s : String) : String :=
  let quote := quoteFor s.toList
  String.ofList (quote :: s.toList.flatMap (escape quote) ++ [quote])

end DelayedPayout.Text
