import TextTemplate.Collect

/-! A frame that absorbs another one holds what both would hold had everything been added to the
first. Each thing a walk does to a frame is shown to be such an addition, so it may be made
before or after the frames around it are closed. -/

namespace TextTemplate

@[simp] theorem Section.push_pieces (part : Section) (piece : Piece) :
    (part.push piece).pieces = part.pieces ++ [piece] := rfl

@[simp] theorem Section.extend_pieces (part : Section) (pieces : List Piece) :
    (part.extend pieces).pieces = part.pieces ++ pieces := rfl

theorem Section.append_push (first second : Section) (piece : Piece) :
    first ++ second.push piece = (first ++ second).push piece :=
  congrArg Section.mk (List.append_assoc ..).symm

private theorem Section.append_extend (first second : Section) (pieces : List Piece) :
    first ++ second.extend pieces = (first ++ second).extend pieces :=
  congrArg Section.mk (List.append_assoc ..).symm

@[simp] theorem Section.append_empty (part : Section) : part ++ ({} : Section) = part :=
  congrArg Section.mk (List.append_nil _)

namespace Frame

/-- While no base class is captured its section is empty. -/
def Flagged (frame : Frame) : Prop := frame.hasBaseClass = false → frame.baseClass = {}

def settled (frame : Frame) : Frame := { frame with literal := .atStart }

theorem absorb_eq (outer inner : Frame) : outer.absorb inner =
    { source := outer.source
      imports := outer.imports ++ inner.imports
      baseClass :=
        if inner.hasBaseClass && !outer.hasBaseClass then outer.baseClass ++ inner.baseClass
        else outer.baseClass
      parameters := outer.parameters ++ inner.parameters
      transformation := outer.transformation ++ inner.transformation
      feature := outer.feature ++ inner.feature
      parameterList := outer.parameterList ++ inner.parameterList
      hasBaseClass := outer.hasBaseClass || inner.hasBaseClass
      requiresHost := outer.requiresHost || inner.requiresHost
      transformationLines := outer.transformationLines + inner.transformationLines
      literal := outer.literal } := by
  cases hosted : inner.requiresHost <;> cases based : inner.hasBaseClass <;>
    cases captured : outer.hasBaseClass <;>
    simp [absorb, takeBaseClass, markHostRequired, take, recount, setPart, part, hosted, based, captured]

theorem absorb_new (frame : Frame) (source : SourceId) : frame.absorb (Frame.new source) = frame := by
  simp [absorb_eq, Frame.new]

theorem Flagged.absorb {outer inner : Frame} (flagged : outer.Flagged) : (outer.absorb inner).Flagged := by
  intro absent
  simp only [absorb_eq, Bool.or_eq_false_iff] at absent ⊢
  rw [if_neg (by simp [absent.2])]
  exact flagged absent.1

theorem flagged_new (source : SourceId) : (Frame.new source).Flagged := fun _ => rfl

@[simp] theorem absorb_settled (outer inner : Frame) : outer.absorb inner.settled = outer.absorb inner := by
  simp only [absorb_eq, settled]

/-- A change that adds at the end: made on a frame and then absorbed, or made on the frame that
absorbed it, it comes to the same. It looks at no text held back. -/
structure Adds (change : Frame → Frame) : Prop where
  absorbed : ∀ outer inner : Frame, inner.Flagged →
    outer.absorb (change inner) = change (outer.absorb inner)
  flagged : ∀ frame : Frame, frame.Flagged → (change frame).Flagged
  settled : ∀ frame : Frame, (change frame).settled = change frame.settled
  literal : ∀ frame : Frame, (change frame).literal = frame.literal
  source : ∀ frame : Frame, (change frame).source = frame.source

namespace Adds

theorem id : Adds fun frame => frame :=
  ⟨fun _ _ _ => rfl, fun _ flagged => flagged, fun _ => rfl, fun _ => rfl, fun _ => rfl⟩

theorem comp {first second : Frame → Frame} (adds : Adds first) (more : Adds second) :
    Adds fun frame => second (first frame) where
  absorbed outer inner flagged := by
    rw [more.absorbed _ _ (adds.flagged _ flagged), adds.absorbed _ _ flagged]
  flagged frame flagged := more.flagged _ (adds.flagged _ flagged)
  settled frame := by rw [more.settled, adds.settled]
  literal frame := by rw [more.literal, adds.literal]
  source frame := by rw [more.source, adds.source]

theorem append {kind : SectionKind} (other : kind ≠ .baseClass) (piece : Piece) :
    Adds fun frame => frame.append kind piece := by
  cases kind with
  | baseClass => exact absurd rfl other
  | imports | parameters | transformation | feature =>
    refine ⟨fun outer inner _ => ?_, fun _ flagged => flagged, fun _ => rfl, fun _ => rfl, fun _ => rfl⟩
    simp [absorb_eq, Frame.append, recount, setPart, part, Section.append_push, Nat.add_assoc]

theorem appendEmission (emission : Emission) : Adds fun frame => frame.appendEmission emission := by
  refine ⟨fun outer inner _ => ?_, fun _ flagged => flagged, fun _ => rfl, fun _ => rfl, fun _ => rfl⟩
  simp [absorb_eq, Frame.appendEmission, Section.append_extend, Nat.add_assoc]

private theorem markHostRequired : Adds Frame.markHostRequired := by
  refine ⟨fun outer inner _ => ?_, fun _ flagged => flagged, fun _ => rfl, fun _ => rfl, fun _ => rfl⟩
  simp [absorb_eq, Frame.markHostRequired]

theorem hostIf (required : Bool) : Adds fun frame => if required then frame.markHostRequired else frame := by
  cases required with
  | true => exact markHostRequired
  | false => exact id

theorem listParameters (parameters : List Parameter) :
    Adds fun frame => { frame with parameterList := frame.parameterList ++ parameters } := by
  refine ⟨fun outer inner _ => ?_, fun _ flagged => flagged, fun _ => rfl, fun _ => rfl, fun _ => rfl⟩
  simp [absorb_eq]

theorem captureBaseClass (name : String) (source : SourceId) (span : Span) :
    Adds fun frame => frame.captureBaseClass name source span where
  absorbed outer inner flagged := by
    cases based : inner.hasBaseClass with
    | true => simp [absorb_eq, Frame.captureBaseClass, based]
    | false =>
      have empty := flagged based
      cases captured : outer.hasBaseClass <;>
        simp [absorb_eq, Frame.captureBaseClass, based, captured, empty, Section.append_push]
  flagged frame flagged := by
    unfold Frame.captureBaseClass
    split
    · exact flagged
    · exact fun absent => by cases absent
  settled frame := by
    unfold Frame.captureBaseClass
    split <;> simp_all [Frame.settled]
  literal frame := by
    unfold Frame.captureBaseClass
    split <;> rfl
  source frame := by
    unfold Frame.captureBaseClass
    split <;> rfl

end Adds

end Frame

end TextTemplate
