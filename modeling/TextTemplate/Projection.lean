import TextTemplate.Code.EscapedUnit
import TextTemplate.Piece

/-!
Projections: ranges of generated code with the ranges they came from, and offsets carried from
one to the other. Inside escaped text an offset is rounded down to the start of its unit. Ranges
may be any, so the last step, from a distance to an offset, may overflow.
-/

namespace TextTemplate

structure Projection where
  generated : Span
  origin : Origin
  /-- The line of generated code the range starts on, counted from zero. -/
  line : Nat
  deriving DecidableEq, Repr, Inhabited

namespace Projection

/-- The unit offsets of the generated text of an escaped range, if the code has that range. -/
def units? (projection : Projection) (code : String) : Option (List (Nat × Nat)) :=
  (Text.slice? projection.generated.start projection.generated.stop code.toList).map
    Code.unitOffsets

/-- How far behind the start of the origin an offset of the code leads. -/
def originDistance? (projection : Projection) (code : String) (offset : Nat) : Option Nat :=
  if projection.generated.contains offset then
    let distance := offset - projection.generated.start
    match projection.origin.kind with
    | .code => some distance
    | .text =>
      (projection.units? code).bind fun units =>
        ((units.takeWhile fun unit => unit.1 ≤ distance).getLast?).map Prod.snd
  else
    none

/-- How far behind the start of the generated range an offset of the origin leads. -/
def generatedDistance? (projection : Projection) (code : String) (offset : Nat) : Option Nat :=
  if projection.origin.span.contains offset then
    let distance := offset - projection.origin.span.start
    match projection.origin.kind with
    | .code => some distance
    | .text =>
      (projection.units? code).bind fun units =>
        ((units.takeWhile fun unit => unit.2 ≤ distance).getLast?).map Prod.fst
  else
    none

def toOrigin? (projection : Projection) (code : String) (offset : Nat) : Except Overflow (Option Nat) :=
  (projection.originDistance? code offset).mapM (addOffsets projection.origin.span.start)

def toGenerated? (projection : Projection) (code : String) (offset : Nat) : Except Overflow (Option Nat) :=
  (projection.generatedDistance? code offset).mapM (addOffsets projection.generated.start)

end Projection

end TextTemplate
