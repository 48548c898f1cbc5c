import SchemaCut.Text.CodeRanges

/-!
# Blank characters

The characters that have the Unicode property `White_Space`.
-/

namespace SchemaCut.Text

/-- The ranges of code points with the property `White_Space`, ends included. -/
def blankRanges : CodeRanges :=
  [(0x9, 0xD), (0x20, 0x20), (0x85, 0x85), (0xA0, 0xA0), (0x1680, 0x1680), (0x2000, 0x200A),
    (0x2028, 0x2029), (0x202F, 0x202F), (0x205F, 0x205F), (0x3000, 0x3000)]

/-- Whether a character is blank. -/
def isBlank (c : Char) : Bool := blankRanges.has c

example : isBlank '\u00a0' = true ∧ isBlank '\u3000' = true ∧ isBlank '\u000b' = true := by decide

example : isBlank '\u001c' = false ∧ isBlank '\u180e' = false ∧ isBlank '\u200b' = false := by
  decide

end SchemaCut.Text
