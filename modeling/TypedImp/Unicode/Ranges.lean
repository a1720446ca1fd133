/-!
# Sets of characters as stretches

The properties of the Unicode standard are sets of code points.  Each is kept as
the list of its stretches, first and last code point included, in rising order
and with a gap between any two.
-/

namespace TypedImp.Unicode

/-- A set of code points, as its stretches in rising order. -/
abbrev Ranges := List (Nat × Nat)

/-- Whether a code point lies in one of the stretches.  The search ends at the
first stretch that ends at the code point or behind it. -/
def Ranges.contains : Ranges → Nat → Bool
  | [], _ => false
  | (first, last) :: rest, n => if last < n then Ranges.contains rest n else first ≤ n

end TypedImp.Unicode
