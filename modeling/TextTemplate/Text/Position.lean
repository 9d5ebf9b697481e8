import TextTemplate.Text.Lines

/-!
Line and column of a byte offset, both counted from zero, columns in characters.
-/

namespace TextTemplate.Text

/-- The text before an offset: up to the end for an offset past it, and the whole text for an
offset inside a character. -/
def before (text : List Char) (offset : Nat) : List Char :=
  ((splitAt? (min offset (width text)) text).map Prod.fst).getD text

def position (text : List Char) (offset : Nat) : Nat × Nat :=
  let passed := before text offset
  (newlines passed, (lastLine passed).length)

end TextTemplate.Text
