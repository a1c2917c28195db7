import DeclPieces.Text.Rune

/-! Classes of characters as lists of ranges, in ascending order. -/
namespace DeclPieces.Text

/-- The code points from `first` to `last`, both included. -/
structure CharRange where
  first : Nat
  last : Nat

/-- Does one of the ranges hold the code point? -/
def inRanges (ranges : List CharRange) (n : Nat) : Bool :=
  ranges.any fun r => r.first ≤ n && n ≤ r.last

end DeclPieces.Text
