import TextTemplate.Text.Width

/-!
Lines of a text, in the two readings the library needs: runs that keep their newline, and
lines as they are shown, without their line ending.
-/

namespace TextTemplate.Text

def newlines (text : List Char) : Nat :=
  text.count '\n'

/-- The text cut after every newline. No part is empty and nothing is lost. -/
def lineRuns : List Char → List (List Char)
  | [] => []
  | c :: rest =>
    if c = '\n' then
      [c] :: lineRuns rest
    else
      match lineRuns rest with
      | [] => [[c]]
      | line :: more => (c :: line) :: more

/-- A line run without its newline and a carriage return just before that newline. -/
def withoutEnding (line : List Char) : List Char :=
  match line.reverse with
  | '\n' :: '\r' :: rest => rest.reverse
  | '\n' :: rest => rest.reverse
  | _ => line

/-- The lines of the text as they are shown. -/
def shownLines (text : List Char) : List (List Char) :=
  (lineRuns text).map withoutEnding

def lastLine (text : List Char) : List Char :=
  (text.reverse.takeWhile (· != '\n')).reverse

theorem flatten_lineRuns (text : List Char) : (lineRuns text).flatten = text := by
  fun_induction lineRuns text with
  | case1 => rfl
  | case2 rest ih => simp [ih]
  | case3 c rest plain empty ih =>
    rw [empty] at ih
    simpa using ih
  | case4 c rest plain line more split ih =>
    rw [split] at ih
    simpa using ih

end TextTemplate.Text
