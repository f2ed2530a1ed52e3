/-! Sets of characters given by increasing ranges of code points. -/

namespace MarkupAudit

/-- Closed ranges of code points, first and last member, in increasing order. -/
abbrev CodeRanges := List (Nat × Nat)

/-- Whether one of the ranges holds the character's code point. -/
def CodeRanges.covers (ranges : CodeRanges) (c : Char) : Bool :=
  ranges.any fun r => r.1 ≤ c.toNat && c.toNat ≤ r.2

end MarkupAudit
