/-!
# Tables of characters

A class of characters as a table of ranges, in ascending order.

* `inRanges` — membership in such a class.
-/

namespace OverrideCheck

/-- A character lies in one of the ranges, ends included. -/
def inRanges (table : Array (Nat × Nat)) (c : Char) : Bool :=
  table.any fun (first, last) => first ≤ c.toNat && c.toNat ≤ last

end OverrideCheck
