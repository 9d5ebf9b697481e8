import TextTemplate.Template

/-!
Pieces of generated text and the sections they gather in. A piece may remember where it came
from; a piece without text, or from an empty span, never does, so whatever is mapped covers
something on both sides.
-/

namespace TextTemplate

/-- How a piece relates to the text it came from. -/
inductive OriginKind where
  /-- Copied character by character. -/
  | code
  /-- Escaped for a string literal; unescaping gives the text back. -/
  | text
  deriving DecidableEq, Repr, Inhabited

structure Origin where
  source : SourceId
  span : Span
  kind : OriginKind
  deriving DecidableEq, Repr, Inhabited

structure Piece where
  text : String
  origin? : Option Origin
  deriving DecidableEq, Repr, Inhabited

namespace Piece

def plain (text : String) : Piece := ⟨text, none⟩

/-- Text that came from `origin`, unless one of the two is empty. -/
def mapped (text : String) (origin : Origin) : Piece :=
  if text.isEmpty || origin.span.isEmpty then plain text else ⟨text, some origin⟩

end Piece

structure Section where
  pieces : List Piece := []
  deriving DecidableEq, Repr, Inhabited

namespace Section

def push (part : Section) (piece : Piece) : Section :=
  ⟨part.pieces ++ [piece]⟩

def extend (part : Section) (pieces : List Piece) : Section :=
  ⟨part.pieces ++ pieces⟩

instance : Append Section where
  append first second := first.extend second.pieces

def isEmpty (part : Section) : Bool :=
  part.pieces.isEmpty

def render (part : Section) : String :=
  String.join (part.pieces.map Piece.text)

/-- Whether what follows the section starts a line, judged by its last piece with text. -/
def endsWithNewline (part : Section) : Bool :=
  match part.pieces.reverse.find? fun piece => !piece.text.isEmpty with
  | some piece => piece.text.toList.getLast? = some '\n'
  | none => true

end Section

/-- The five groups of generated text, in the order they appear in a program. -/
inductive SectionKind where
  | imports
  | baseClass
  | parameters
  | transformation
  | feature
  deriving DecidableEq, Repr, Inhabited

end TextTemplate
