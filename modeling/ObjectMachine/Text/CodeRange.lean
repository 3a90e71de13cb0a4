/-!
# Ranges of code points

A character property is given as the ranges of code points that have it, in increasing order.
-/

namespace ObjectMachine
namespace Text

def inRanges (ranges : List (Nat × Nat)) (n : Nat) : Bool :=
  ranges.any fun range => range.1 ≤ n && n ≤ range.2

end Text
end ObjectMachine
