/-!
# Ranges of code points

A class of characters is given by the ranges of its code points, as the tables of the Unicode
standard give it. The tables of this library are those of version 17.
-/

namespace SchemaCut.Text

/-- Ranges of code points, ends included, in ascending order. -/
abbrev CodeRanges := List (Nat × Nat)

/-- Whether a character is in one of the ranges. -/
def CodeRanges.has (rs : CodeRanges) (c : Char) : Bool :=
  rs.any fun r => r.1 ≤ c.toNat && c.toNat ≤ r.2

end SchemaCut.Text
