/-!
# Classes of characters as ranges of code points

A property that a standard assigns to characters is kept as the list of closed ranges of code
points that have it, and `CharRanges.contains` decides membership.  The tables are written in
ascending order, without overlaps, for those who read them; membership does not depend on it.
-/

namespace GoResolver.Text

/-- Closed ranges of code points. -/
abbrev CharRanges := List (Nat × Nat)

namespace CharRanges

/-- Whether a character lies in one of the ranges. -/
def contains (ranges : CharRanges) (c : Char) : Bool :=
  ranges.any fun r => r.1 ≤ c.toNat && c.toNat ≤ r.2

@[simp] theorem contains_nil (c : Char) : contains [] c = false := rfl

@[simp] theorem contains_cons (r : Nat × Nat) (rs : CharRanges) (c : Char) :
    contains (r :: rs) c = ((r.1 ≤ c.toNat && c.toNat ≤ r.2) || contains rs c) := rfl

end CharRanges

end GoResolver.Text
