/-!
# Ranges of code points

A table of a character property is a list of inclusive ranges of code points.
-/

namespace StyleBuild.Text

/-- Inclusive ranges of code points. -/
abbrev CodeRanges := List (Nat × Nat)

/-- Whether the code point of `c` lies in one of the ranges. -/
def CodeRanges.has (table : CodeRanges) (c : Char) : Bool :=
  table.any fun r => r.1 ≤ c.toNat && c.toNat ≤ r.2

end StyleBuild.Text
