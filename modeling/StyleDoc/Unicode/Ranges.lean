/-!
Sets of characters given as ranges of code points, which is how Unicode publishes a property.
-/

namespace StyleDoc.Unicode

/-- Ranges of code points, each with its first and its last member. -/
abbrev Ranges := List (Nat × Nat)

def Ranges.covers (ranges : Ranges) (n : Nat) : Bool :=
  ranges.any fun range => range.1 ≤ n && n ≤ range.2

end StyleDoc.Unicode
