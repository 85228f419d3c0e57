/-! Sets of characters as closed ranges of code points. -/

namespace DelayedPayout.Text

def inRanges (ranges : List (Nat × Nat)) (code : Nat) : Bool :=
  ranges.any fun range => range.1 ≤ code && code ≤ range.2

end DelayedPayout.Text
