/-!
# Ranges of code points

Classes of characters are given by their ranges.
-/

namespace WireProxy.Text

/-- Pairs of a first and a last code point. -/
abbrev Ranges := List (Nat × Nat)

def Ranges.has (ranges : Ranges) (c : Char) : Bool :=
  ranges.any fun (first, last) => first ≤ c.toNat && c.toNat ≤ last

end WireProxy.Text
