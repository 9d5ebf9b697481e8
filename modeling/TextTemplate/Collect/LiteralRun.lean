import TextTemplate.Code.StringLiteral
import TextTemplate.Piece
import TextTemplate.Text.Lines

/-!
Runs of literal text. Text is held back until something else follows, then written as one
statement per line, so that generated lines advance with the lines of the template. Text nodes
that touch form one segment, and a line cut between two of them still gives one statement.
-/

namespace TextTemplate

/-- Text of touching nodes and the span they cover together. -/
structure Segment where
  text : String
  span : Span
  deriving DecidableEq, Repr, Inhabited

/-- What ends a run: another node of the template, or the end of its nodes. -/
inductive Boundary where
  | fragment
  | endOfInput
  deriving DecidableEq, Repr, Inhabited

inductive LiteralState where
  | atStart
  | inRun (segments : List Segment)
  | afterFragment
  deriving DecidableEq, Repr, Inhabited

/-- The statements of a run, and how many lines they take. -/
structure Emission where
  pieces : List Piece := []
  lines : Nat := 0
  deriving DecidableEq, Repr, Inhabited

def writeOpening : String := "this.Write(\""

def writeClosing : String := "\");\n"

namespace Segment

/-- The statements for lines of a segment, the first of which starts `offset` bytes into it. -/
def writesFrom (source : SourceId) (span : Span) : Nat → List (List Char) → List Piece
  | _, [] => []
  | offset, line :: rest =>
    let next := offset + Text.width line
    .plain writeOpening ::
      .mapped (String.ofList (Code.escapeChars line)) ⟨source, span.narrow offset next, .text⟩ ::
      .plain writeClosing ::
      writesFrom source span next rest

def lines (segment : Segment) : List (List Char) :=
  Text.lineRuns segment.text.toList

def writes (source : SourceId) (segment : Segment) : List Piece :=
  writesFrom source segment.span 0 segment.lines

/-- Segments with one more text: joined to the last segment when it starts where that ends. -/
def extend (text : LiteralText) : List Segment → List Segment
  | [] => [⟨text.content, text.span⟩]
  | [last] =>
    if last.span.stop = text.span.start then
      [⟨last.text ++ text.content, ⟨last.span.start, text.span.stop⟩⟩]
    else
      [last, ⟨text.content, text.span⟩]
  | first :: rest => first :: extend text rest

end Segment

def Emission.ofSegments (source : SourceId) (segments : List Segment) : Emission where
  pieces := segments.flatMap (Segment.writes source)
  lines := (segments.flatMap Segment.lines).length

/-- Whether the spans of the statements take no sum that overflows. -/
def Emission.fits (emission : Emission) : Bool :=
  emission.pieces.all fun piece => piece.origin?.all fun origin => origin.span.fits

def Emission.isEmpty (emission : Emission) : Bool :=
  emission.pieces.isEmpty

namespace LiteralState

def segments : LiteralState → List Segment
  | .inRun segments => segments
  | .atStart => []
  | .afterFragment => []

/-- Takes one text node; an empty one opens a run and adds nothing. -/
def consume (state : LiteralState) (text : LiteralText) : LiteralState :=
  if text.content.isEmpty then
    .inRun state.segments
  else
    .inRun (Segment.extend text state.segments)

def after : Boundary → LiteralState
  | .fragment => .afterFragment
  | .endOfInput => .atStart

def flush (state : LiteralState) (boundary : Boundary) (source : SourceId) :
    LiteralState × Emission :=
  (after boundary, Emission.ofSegments source state.segments)

def isPending (state : LiteralState) : Bool :=
  !state.segments.isEmpty

def runText? : LiteralState → Option String
  | .inRun segments => some (String.join (segments.map Segment.text))
  | .atStart => none
  | .afterFragment => none

end LiteralState

end TextTemplate
