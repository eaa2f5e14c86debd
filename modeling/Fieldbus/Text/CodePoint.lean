/-!
# Sets of characters

A property of characters is written down as the ranges of the numbers of the characters that have
it.  `inRanges` says whether a number lies in one of them, and `inOrder` that they stand in
increasing order with gaps between them, so that no number is listed twice.
-/

set_option autoImplicit false

namespace Fieldbus
namespace Text

/-- Is a number within one of the ranges, ends included? -/
def inRanges (ranges : List (Nat × Nat)) (n : Nat) : Bool :=
  ranges.any fun (first, last) => first ≤ n && n ≤ last

/-- Do the ranges stand in increasing order, with gaps between them? -/
def inOrder : List (Nat × Nat) → Bool
  | [] => true
  | [(first, last)] => first ≤ last
  | (first, last) :: (next, stop) :: rest =>
    first ≤ last && last + 1 < next && inOrder ((next, stop) :: rest)

end Text
end Fieldbus
