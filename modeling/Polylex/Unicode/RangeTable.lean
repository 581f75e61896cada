/-!
# Tables of code point ranges

The character properties of the standard are tables of ranges of code points. A
`Polylex.Unicode.RangeTable` lists them in ascending order, and
`Polylex.Unicode.RangeTable.covers` looks a code point up.
-/

namespace Polylex.Unicode

/-- A set of code points: disjoint ranges in ascending order, both ends included. -/
abbrev RangeTable := List (Nat × Nat)

namespace RangeTable

/-- Whether a code point lies in the table. The ranges ascend, so the search stops at the
first range that begins above the code point. -/
def covers : RangeTable → Nat → Bool
  | [], _ => false
  | (low, high) :: rest, n => low ≤ n && (n ≤ high || covers rest n)

end RangeTable

end Polylex.Unicode
