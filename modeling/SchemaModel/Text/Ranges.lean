/-!
# Ranges of code points

A property of characters is given by a list of ranges of code points, both ends included.
-/

namespace SchemaModel.Text

def inRanges (ranges : List (Nat × Nat)) (code : Nat) : Bool :=
  ranges.any fun range => range.1 ≤ code && code ≤ range.2

end SchemaModel.Text
