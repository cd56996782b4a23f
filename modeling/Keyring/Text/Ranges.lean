/-!
# Sets of code points

A property of characters is kept as the list of its ranges, both ends included. A character
belongs to the set when one of the ranges holds its code point.
-/

namespace Keyring.Text

/-- A set of code points, written as ranges with both ends included. -/
abbrev Ranges := List (Nat × Nat)

/-- Whether one of the ranges holds `n`. -/
def Ranges.contains (t : Ranges) (n : Nat) : Bool :=
  t.any fun r => r.1 ≤ n && n ≤ r.2

end Keyring.Text
