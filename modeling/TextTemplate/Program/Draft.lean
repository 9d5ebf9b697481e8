import TextTemplate.Projection.Table
import TextTemplate.Text.Lines

/-!
A program being written. Pieces are put at the end, and each piece with an origin is recorded
as a projection from where it came to rest.
-/

namespace TextTemplate

structure Draft where
  code : String := ""
  line : Nat := 0
  table : ProjectionTable := {}
  deriving DecidableEq, Repr, Inhabited

namespace Draft

def position (draft : Draft) : Nat :=
  draft.code.utf8ByteSize

def write (draft : Draft) (text : String) : Draft :=
  { draft with
    code := draft.code ++ text
    line := draft.line + Text.newlines text.toList }

/-- Writes text and records where it came from, unless there is nothing to relate. -/
def writeMapped (draft : Draft) (text : String) (origin : Origin) : Draft :=
  if text.isEmpty || origin.span.isEmpty then
    draft.write text
  else
    let written := draft.write text
    { written with
      table := draft.table.record ⟨⟨draft.position, written.position⟩, origin, draft.line⟩ }

def writePiece (draft : Draft) (piece : Piece) : Draft :=
  match piece.origin? with
  | none => draft.write piece.text
  | some origin => draft.writeMapped piece.text origin

def writePieces (draft : Draft) (pieces : List Piece) : Draft :=
  pieces.foldl writePiece draft

def writeSection (draft : Draft) (part : Section) : Draft :=
  draft.writePieces part.pieces

/-- Ends the line unless the section just written has ended it. -/
def endLineAfter (draft : Draft) (part : Section) : Draft :=
  if part.endsWithNewline then draft else draft.write "\n"

end Draft

end TextTemplate
