/-!
# Free names

A name that is not among those already used, made from a base name and underscores.
-/

namespace WireProxy

def underscored (base : String) (n : Nat) : String :=
  base ++ String.ofList (List.replicate n '_')

/-- The base name with the fewest underscores that make it none of the used ones.  Of one more
candidate than there are used names, one is free. -/
def freeName (base : String) (used : List String) : String :=
  let isFree (n : Nat) : Bool := !used.contains (underscored base n)
  underscored base (((List.range (used.length + 1)).find? isFree).getD used.length)

end WireProxy
