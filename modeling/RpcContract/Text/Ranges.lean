/-!
# Sets of characters as ranges

A set of characters is given by the first and last code points of its ranges, in ascending order.
-/

namespace RpcContract.Text

def inRanges (ranges : List (Nat × Nat)) (code : Nat) : Bool :=
  ranges.any fun range => range.1 ≤ code && code ≤ range.2

end RpcContract.Text
