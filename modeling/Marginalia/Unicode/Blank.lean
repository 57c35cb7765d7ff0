import Marginalia.Unicode.Ranges

/-!
# White space

A code point is blank when its bidirectional class is a separator of blocks, segments or
words, or its category is a space separator.
-/

namespace Marginalia.Unicode

/-- The ranges of blank code points. -/
def blankRanges : List (Nat × Nat) := [
  (9, 13), (28, 32), (133, 133), (160, 160), (5760, 5760), (8192, 8202), (8232, 8233),
  (8239, 8239), (8287, 8287), (12288, 12288)]

/-- Whether a code point is white space. -/
def isBlank (code : Nat) : Bool := inRanges blankRanges code

/-- The space is blank. -/
theorem isBlank_space : isBlank 32 = true := by decide

end Marginalia.Unicode
