import TextTemplate.Collect.LiteralRun

/-!
A frame holds what was collected from one source. An include gets a frame of its own, which is
absorbed by the frame around it when the include ends. The transformation section keeps count
of its lines, and the base class is the first one captured.
-/

namespace TextTemplate

/-- A parameter of the template: a property of the generated class. -/
structure Parameter where
  typeName : String
  name : String
  deriving DecidableEq, Repr, Inhabited

structure Frame where
  source : SourceId
  imports : Section := {}
  baseClass : Section := {}
  parameters : Section := {}
  transformation : Section := {}
  feature : Section := {}
  parameterList : List Parameter := []
  hasBaseClass : Bool := false
  requiresHost : Bool := false
  transformationLines : Nat := 0
  literal : LiteralState := .atStart
  deriving DecidableEq, Repr, Inhabited

namespace Frame

def new (source : SourceId) : Frame := { source }

def part (frame : Frame) : SectionKind → Section
  | .imports => frame.imports
  | .baseClass => frame.baseClass
  | .parameters => frame.parameters
  | .transformation => frame.transformation
  | .feature => frame.feature

def setPart (frame : Frame) (kind : SectionKind) (part : Section) : Frame :=
  match kind with
  | .imports => { frame with imports := part }
  | .baseClass => { frame with baseClass := part }
  | .parameters => { frame with parameters := part }
  | .transformation => { frame with transformation := part }
  | .feature => { frame with feature := part }

/-- Changes the line count when `kind` is the section whose lines are counted. -/
def recount (frame : Frame) (kind : SectionKind) (change : Nat → Nat) : Frame :=
  if kind = .transformation then
    { frame with transformationLines := change frame.transformationLines }
  else
    frame

def append (frame : Frame) (kind : SectionKind) (piece : Piece) : Frame :=
  (frame.setPart kind ((frame.part kind).push piece)).recount kind
    (· + Text.newlines piece.text.toList)

def appendAll (frame : Frame) (kind : SectionKind) (pieces : List Piece) : Frame :=
  pieces.foldl (fun grown piece => grown.append kind piece) frame

/-- Adds the statements of a literal run to the transformation section. -/
def appendEmission (frame : Frame) (emission : Emission) : Frame :=
  { frame with
    transformation := frame.transformation.extend emission.pieces
    transformationLines := frame.transformationLines + emission.lines }

def take (frame : Frame) (kind : SectionKind) (donor : Frame) : Frame :=
  (frame.setPart kind (frame.part kind ++ donor.part kind)).recount kind
    (· + donor.transformationLines)

def drop (frame : Frame) (kind : SectionKind) : Frame :=
  (frame.setPart kind {}).recount kind fun _ => 0

/-- Moves the section of `donor` to the end of ours; both frames as they are afterwards. -/
def merge (frame : Frame) (kind : SectionKind) (donor : Frame) : Frame × Frame :=
  (frame.take kind donor, donor.drop kind)

/-- Takes the base class of `child` unless one was captured before. -/
def takeBaseClass (frame child : Frame) : Frame :=
  if child.hasBaseClass && !frame.hasBaseClass then
    { frame.take .baseClass child with hasBaseClass := true }
  else
    frame

def markHostRequired (frame : Frame) : Frame :=
  { frame with requiresHost := true }

/-- Takes all of a finished include's frame, in the order of traversal. -/
def absorb (frame child : Frame) : Frame :=
  let merged :=
    (((frame.take .imports child).take .parameters child).take .transformation child).take
      .feature child
  let listed := { merged with parameterList := merged.parameterList ++ child.parameterList }
  let hosted := if child.requiresHost then listed.markHostRequired else listed
  hosted.takeBaseClass child

/-- Captures the inherited class; only the first one counts. -/
def captureBaseClass (frame : Frame) (name : String) (source : SourceId) (span : Span) : Frame :=
  if frame.hasBaseClass then
    frame
  else
    { frame with
      hasBaseClass := true
      baseClass := frame.baseClass.push (.mapped name ⟨source, span, .code⟩) }

def consumeText (frame : Frame) (text : LiteralText) : Frame :=
  { frame with literal := frame.literal.consume text }

/-- Whether the literal run can be written out without an overflow. -/
def flushes (frame : Frame) : Bool :=
  (Emission.ofSegments frame.source frame.literal.segments).fits

/-- Ends the literal run and writes it out. -/
def flush (frame : Frame) (boundary : Boundary) : Frame :=
  let flushed := frame.literal.flush boundary frame.source
  { frame with literal := flushed.1 }.appendEmission flushed.2

end Frame

end TextTemplate
