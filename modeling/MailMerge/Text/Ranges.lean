/-!
# Sets of characters given by ranges

Character properties are tables of ranges of code points, both ends included.
-/

namespace MailMerge

/-- Whether a code point lies in one of the ranges. -/
def inRanges (ranges : List (Nat × Nat)) (code : Nat) : Bool :=
  ranges.any fun range => decide (range.1 ≤ code) && decide (code ≤ range.2)

end MailMerge
