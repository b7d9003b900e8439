/-!
# Sets of Characters as Code Point Ranges

The character properties of the Unicode standard are published as lists of closed ranges
of code points. A property table of this library is such a list, `CodeRanges`, and a
character has the property when some range of the list holds its code point.
-/

namespace EquivalentCircuit.Unicode

/-- A **set of characters**, as closed ranges `(first, last)` of code points. -/
abbrev CodeRanges := List (Nat × Nat)

/-- A character belongs to the set when one of its ranges holds the code point. -/
def CodeRanges.contains (ranges : CodeRanges) (c : Char) : Bool :=
  ranges.any fun range => decide (range.1 ≤ c.toNat ∧ c.toNat ≤ range.2)

theorem CodeRanges.contains_iff {ranges : CodeRanges} {c : Char} :
    ranges.contains c = true ↔ ∃ range ∈ ranges, range.1 ≤ c.toNat ∧ c.toNat ≤ range.2 := by
  simp [contains]

end EquivalentCircuit.Unicode
