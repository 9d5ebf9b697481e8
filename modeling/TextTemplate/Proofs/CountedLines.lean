import Mathlib.Logic.Function.Basic
import TextTemplate.Proofs.StringLiterals
import TextTemplate.Proofs.TracedCode

/-! The lines of the transform method. A frame counts them by pieces, by statements and by what other
frames give up, and it never renders its section to do so. Whatever is done to however many frames,
each count is that of the text the section has by then, and that of the lines a draft is led over
when the section is written. -/

namespace TextTemplate

/-- One change made to frames that are told apart by number. -/
inductive FrameAction where
  | append (target : Nat) (kind : SectionKind) (piece : Piece)
  | appendFlushed (target : Nat) (state : LiteralState) (boundary : Boundary) (source : SourceId)
  | merge (target : Nat) (kind : SectionKind) (donor : Nat) (apart : target ≠ donor)
  | absorb (target child : Nat)
  | markHostRequired (target : Nat)
  | captureBaseClass (target : Nat) (name : String) (source : SourceId) (span : Span)

namespace FrameAction

def apply (frames : Nat → Frame) : FrameAction → Nat → Frame
  | .append target kind piece => Function.update frames target ((frames target).append kind piece)
  | .appendFlushed target state boundary source =>
    Function.update frames target ((frames target).appendEmission (state.flush boundary source).2)
  | .merge target kind donor _ =>
    let merged := (frames target).merge kind (frames donor)
    Function.update (Function.update frames target merged.1) donor merged.2
  | .absorb target child => Function.update frames target ((frames target).absorb (frames child))
  | .markHostRequired target => Function.update frames target (frames target).markHostRequired
  | .captureBaseClass target name source span =>
    Function.update frames target ((frames target).captureBaseClass name source span)

def applyAll (sources : Nat → SourceId) (actions : List FrameAction) : Nat → Frame :=
  actions.foldl apply fun number => Frame.new (sources number)

end FrameAction

private theorem newlines_eq_zero {text : List Char} (onLine : ∀ c ∈ text, Code.endsLine c = false) :
    Text.newlines text = 0 := by
  refine List.count_eq_zero.mpr fun member => ?_
  cases onLine '\n' member

namespace Segment

/-- A statement is a line: its literal has no newline, and its end has one. -/
theorem newlines_writesFrom (source : SourceId) (span : Span) (offset : Nat) (lines : List (List Char)) :
    Text.newlines (renderedText (writesFrom source span offset lines)).toList = lines.length := by
  induction lines generalizing offset with
  | nil => rfl
  | cons line rest ih =>
    have opening : Text.newlines writeOpening.toList = 0 := by decide
    have closing : Text.newlines writeClosing.toList = 1 := by decide
    have literal : Text.newlines (Code.escapeChars line) = 0 :=
      newlines_eq_zero (Code.escapeChars_denotes line).onLine
    simp only [writesFrom, renderedText_cons, newlines_append, Piece.plain, Piece.mapped_text,
      String.toList_ofList, opening, closing, literal, ih, List.length_cons]
    omega

end Segment

theorem Emission.newlines_ofSegments (source : SourceId) (segments : List Segment) :
    Text.newlines (renderedText (ofSegments source segments).pieces).toList =
      (ofSegments source segments).lines := by
  induction segments with
  | nil => rfl
  | cons segment rest ih =>
    simp only [ofSegments, List.flatMap_cons, List.length_append, renderedText_append, newlines_append] at ih ⊢
    rw [ih, Segment.writes, Segment.newlines_writesFrom]

namespace Frame

def Counted (frame : Frame) : Prop :=
  frame.transformationLines = Text.newlines frame.transformation.render.toList

theorem counted_new (source : SourceId) : (Frame.new source).Counted := rfl

namespace Counted
variable {frame donor : Frame}

theorem extend (counted : frame.Counted) {grown : Frame} (pieces : List Piece)
    (written : grown.transformation.pieces = frame.transformation.pieces ++ pieces)
    (lines : grown.transformationLines =
      frame.transformationLines + Text.newlines (renderedText pieces).toList) : grown.Counted := by
  show _ = Text.newlines (renderedText grown.transformation.pieces).toList
  rw [written, renderedText_append, newlines_append, lines, counted]
  rfl

theorem append (counted : frame.Counted) (kind : SectionKind) (piece : Piece) :
    (frame.append kind piece).Counted := by
  cases kind with
  | transformation =>
    refine counted.extend [piece] rfl ?_
    rw [renderedText_cons, renderedText_nil, String.append_empty]
    rfl
  | imports | baseClass | parameters | feature => exact counted

theorem appendFlushed (counted : frame.Counted) (state : LiteralState) (boundary : Boundary)
    (source : SourceId) : (frame.appendEmission (state.flush boundary source).2).Counted := by
  refine counted.extend _ rfl ?_
  rw [LiteralState.flush, Emission.newlines_ofSegments]
  rfl

private theorem take (counted : frame.Counted) (other : donor.Counted) (kind : SectionKind) :
    (frame.take kind donor).Counted := by
  cases kind with
  | transformation =>
    refine counted.extend donor.transformation.pieces rfl ?_
    exact congrArg (frame.transformationLines + ·) other
  | imports | baseClass | parameters | feature => exact counted

private theorem drop (counted : frame.Counted) (kind : SectionKind) : (frame.drop kind).Counted := by
  cases kind with
  | transformation => rfl
  | imports | baseClass | parameters | feature => exact counted

private theorem absorb (counted : frame.Counted) (other : donor.Counted) : (frame.absorb donor).Counted := by
  rw [absorb_eq]
  refine counted.extend donor.transformation.pieces rfl ?_
  exact congrArg (frame.transformationLines + ·) other

theorem captureBaseClass (counted : frame.Counted) (name : String) (source : SourceId) (span : Span) :
    (frame.captureBaseClass name source span).Counted := by
  unfold Frame.captureBaseClass
  split
  · exact counted
  · exact counted

private theorem change (counted : frame.Counted) (effect : Effect) : (effect.change frame).Counted := by
  apply effect.change_preserves _ _ _ _ counted
  · exact fun _ kind piece _ kept => kept.append kind piece
  · exact fun _ _ kept => kept
  · exact fun _ kept => kept
  · exact fun _ name source span kept => kept.captureBaseClass name source span

private theorem writeSection (counted : frame.Counted) (draft : Draft) :
    (draft.writeSection frame.transformation).line = draft.line + frame.transformationLines := by
  rw [counted]
  exact (Draft.Wrote.pieces draft frame.transformation.pieces).line

end Counted

end Frame

namespace FrameAction

variable {frames : Nat → Frame}

theorem forall_update {Kept : Frame → Prop} (kept : ∀ number, Kept (frames number)) (target : Nat)
    {changed : Frame} (own : Kept changed) (number : Nat) : Kept (Function.update frames target changed number) :=
  (Function.forall_update_iff frames fun _ => Kept).mpr ⟨own, fun other _ => kept other⟩ number

private theorem apply_counted (counted : ∀ number, (frames number).Counted) (action : FrameAction) :
    ∀ number, (action.apply frames number).Counted := by
  cases action with
  | append target kind piece => exact forall_update counted _ ((counted target).append kind piece)
  | appendFlushed target state boundary source =>
    exact forall_update counted _ ((counted target).appendFlushed state boundary source)
  | merge target kind donor apart =>
    exact forall_update (forall_update counted _ ((counted target).take (counted donor) kind)) _
      ((counted donor).drop kind)
  | absorb target child => exact forall_update counted _ ((counted target).absorb (counted child))
  | markHostRequired target => exact forall_update counted target (counted target)
  | captureBaseClass target name source span =>
    exact forall_update counted _ ((counted target).captureBaseClass name source span)

private theorem foldl_counted (actions : List FrameAction) (counted : ∀ number, (frames number).Counted) :
    ∀ number, (actions.foldl apply frames number).Counted := by
  induction actions generalizing frames with
  | nil => exact counted
  | cons action rest ih => exact ih (apply_counted counted action)

end FrameAction

private theorem Session.gathered_counted (session : Session) (root : Template) :
    (session.gathered root).frame.Counted :=
  Walk.gatherAll_preserves (fun _ source _ counted => counted.appendFlushed _ .endOfInput source)
    (fun _ effect counted => counted.change effect) session.macros _ _ (Frame.counted_new root.source)

/-- Whatever is done to frames, in any order and between any two of them, each counts the newlines of
its transformation section. So in the program of a bundle, whatever the options, the body of the transform
method spans the lines counted; without a root, or when a sum of offsets overflows, there is no program. -/
theorem Frame.transformation_counted :
    (∀ (sources : Nat → SourceId) (actions : List FrameAction) (number : Nat),
      let frame := FrameAction.applyAll sources actions number
      frame.transformationLines = Text.newlines frame.transformation.render.toList) ∧
    ∀ (bundle : Bundle) (options : Options),
      let known := { options with macros := options.macros.withDefaults bundle.macros }
      match bundle.generate options with
      | .error problem => problem = .missingRoot bundle.root ∧ bundle.find? bundle.root = none ∨
        problem = .overflow ∧ ∃ span, bundle.Takes options span ∧ ¬span.IsWord
      | .ok program => ∃ root collected rest,
        bundle.find? bundle.root = some root ∧
        Session.collect ⟨bundle.includes, known.macros, neverCancelled⟩ root = .ok collected ∧
        program = .assemble collected known ∧
        let opened := Program.opened collected.frame known
        program.code = opened.code ++ collected.frame.transformation.render ++ rest ∧
        (opened.writeSection collected.frame.transformation).line =
          opened.line + collected.frame.transformationLines := by
  refine ⟨fun sources actions => ?_, fun bundle options => ?_⟩
  · exact FrameAction.foldl_counted actions fun number => counted_new (sources number)
  intro known
  cases located : bundle.find? bundle.root with
  | none =>
    rw [Bundle.generate_missing located]
    exact .inl ⟨rfl, rfl⟩
  | some root =>
    have collects := Bundle.collect_session located options
    rw [Bundle.generate_located located]
    cases room : bundle.fits options with
    | false => exact .inr ⟨rfl, Bundle.fits_eq_false_iff.mp room⟩
    | true =>
      rw [room, if_pos rfl] at collects
      have counted := Session.gathered_counted (bundle.session options) root
      generalize (bundle.session options).gathered root = collected at collects counted
      obtain ⟨front, back, before, code, -⟩ := Program.assemble_body collected known
      refine ⟨root, collected, renderedText back, rfl, collects, rfl, ?_, counted.writeSection _⟩
      rw [code, renderedText_append, renderedText_append, before.code, String.empty_append]
      rfl

end TextTemplate
