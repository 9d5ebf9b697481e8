import TextTemplate.Problem
import TextTemplate.Text.Position

/-!
Problems as warnings for a terminal: place, message, and the line of the template with a row of
carets under the range.
-/

namespace TextTemplate

/-- The control sequences of a report; all empty when it is not coloured. -/
structure Palette where
  warning : String
  dim : String
  reset : String

namespace Palette

def plain : Palette := ⟨"", "", ""⟩

def colored : Palette := ⟨"\x1b[1;33m", "\x1b[2m", "\x1b[0m"⟩

end Palette

/-- A text filled up with spaces on the left to `size` characters. -/
def padLeft (size : Nat) (text : String) : String :=
  String.ofList (List.replicate (size - text.length) ' ') ++ text

namespace Problem

/-- A row of a report: the margin, then what stands behind it. -/
def row (palette : Palette) (margin content : String) : String :=
  palette.dim ++ margin ++ " |" ++ palette.reset ++ content ++ "\n"

/-- How many carets mark a range on a line: the length of the range, but at most to the end of
the line, and at least one. -/
def caretCount (span : Span) (column : Nat) (line : List Char) : Nat :=
  max 1 (min span.length (line.length - column))

def excerpt (problem : Problem) (palette : Palette) (place : Nat × Nat) (line : List Char) :
    String :=
  let number := toString (place.1 + 1)
  let margin := max 2 number.length
  row palette (padLeft margin "") "" ++
    row palette (padLeft margin number) (" " ++ String.ofList line) ++
    row palette (padLeft margin "")
      (" " ++ String.ofList (List.replicate place.2 ' ') ++ palette.warning ++
        String.ofList (List.replicate (caretCount problem.span place.2 line) '^') ++
        palette.reset)

/-- The problem as a warning about the text of its source. -/
def report (problem : Problem) (text : String) (palette : Palette) : String :=
  let place := Text.position text.toList problem.span.start
  " file: " ++ problem.source.path ++ ":" ++ toString (place.1 + 1) ++ ":" ++
    toString (place.2 + 1) ++ "\n" ++
    palette.warning ++ "warning:" ++ palette.reset ++ " " ++ problem.kind.title ++ ": " ++
    problem.message ++ "\n" ++
    (((Text.shownLines text.toList)[place.1]?).map (problem.excerpt palette place)).getD ""

end Problem

end TextTemplate
