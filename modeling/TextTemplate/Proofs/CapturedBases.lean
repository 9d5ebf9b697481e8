import Mathlib.Data.List.Induction
import TextTemplate.Proofs.CountedLines
import TextTemplate.Proofs.Traversal

/-! The base class of a frame and the flag that says it has one. They are two records of the same thing,
and a program is written by both: with the flag it gets the section for a base, without it a base of its own.
Captures and absorbed frames keep them in step; only who moves or writes the section alone does not. -/

namespace TextTemplate

namespace Frame

/-- The frame has the flag if a base class was captured, and has captured one at most. -/
structure InStep (frame : Frame) : Prop where
  flag : frame.hasBaseClass = true ↔ frame.baseClass.isEmpty = false
  single : frame.baseClass.pieces.length ≤ 1

theorem inStep_iff {frame : Frame} :
    frame.InStep ↔ frame.baseClass.pieces.length = frame.hasBaseClass.toNat := by
  constructor
  · rintro ⟨flag, single⟩
    rw [Section.isEmpty, List.isEmpty_eq_false_iff, ← List.length_pos_iff] at flag
    cases based : frame.hasBaseClass with
    | true =>
      have filled := flag.mp based
      rw [Bool.toNat_true]
      omega
    | false =>
      have empty : ¬0 < frame.baseClass.pieces.length := fun filled => by cases based.symm.trans (flag.mpr filled)
      rw [Bool.toNat_false]
      omega
  · intro length
    constructor
    · rw [Section.isEmpty, List.isEmpty_eq_false_iff, ← List.length_pos_iff, length]
      cases frame.hasBaseClass <;> decide
    · rw [length]
      exact Bool.toNat_le _

instance (frame : Frame) : Decidable frame.InStep := decidable_of_iff _ inStep_iff.symm

theorem inStep_new (source : SourceId) : (Frame.new source).InStep := inStep_iff.mpr rfl

namespace InStep
variable {frame donor : Frame}

theorem of_eq (inStep : frame.InStep) {other : Frame} (section_ : other.baseClass = frame.baseClass)
    (flag : other.hasBaseClass = frame.hasBaseClass) : other.InStep := by
  rw [inStep_iff, section_, flag]
  exact inStep_iff.mp inStep

theorem flagged (inStep : frame.InStep) : frame.Flagged := by
  intro absent
  have length := inStep_iff.mp inStep
  rw [absent] at length
  exact congrArg Section.mk (List.length_eq_zero_iff.mp length)

theorem append (inStep : frame.InStep) {kind : SectionKind} (other : kind ≠ .baseClass) (piece : Piece) :
    (frame.append kind piece).InStep := by
  cases kind with
  | baseClass => exact absurd rfl other
  | imports | parameters | transformation | feature => exact inStep.of_eq rfl rfl

theorem captureBaseClass (inStep : frame.InStep) (name : String) (source : SourceId) (span : Span) :
    (frame.captureBaseClass name source span).InStep := by
  unfold Frame.captureBaseClass
  split
  next => exact inStep
  next absent =>
    have empty : frame.baseClass = {} := inStep.flagged (Bool.eq_false_iff.mpr absent)
    rw [inStep_iff, empty]
    rfl

/-- The frame that absorbs takes the name together with the flag, or neither. -/
theorem absorb (inStep : frame.InStep) (other : donor.InStep) : (frame.absorb donor).InStep := by
  have own := inStep_iff.mp inStep
  have given := inStep_iff.mp other
  rw [inStep_iff, absorb_eq]
  dsimp only
  cases captured : frame.hasBaseClass with
  | true =>
    rw [captured] at own
    rw [Bool.not_true, Bool.and_false, if_neg Bool.false_ne_true, own, Bool.true_or]
  | false =>
    have empty : frame.baseClass = {} := inStep.flagged captured
    cases based : donor.hasBaseClass with
    | false => rw [Bool.false_and, if_neg Bool.false_ne_true, empty]; rfl
    | true =>
      rw [based] at given
      rw [Bool.not_false, Bool.and_true, if_pos rfl, empty, Bool.or_true]
      exact given

private theorem merge (inStep : frame.InStep) (other : donor.InStep) {kind : SectionKind}
    (whole : kind = .baseClass → donor.hasBaseClass = false) :
    (frame.merge kind donor).1.InStep ∧ (frame.merge kind donor).2.InStep := by
  cases kind with
  | baseClass =>
    have empty : donor.baseClass = {} := other.flagged (whole rfl)
    refine ⟨inStep.of_eq ?_ rfl, other.of_eq empty.symm rfl⟩
    show frame.baseClass ++ donor.baseClass = frame.baseClass
    rw [empty, Section.append_empty]
  | imports | parameters | transformation | feature => exact ⟨inStep.of_eq rfl rfl, other.of_eq rfl rfl⟩

theorem change (inStep : frame.InStep) (effect : Effect) : (effect.change frame).InStep := by
  apply effect.change_preserves _ _ _ _ inStep
  · exact fun _ kind piece apart kept => kept.append apart piece
  · exact fun _ _ kept => kept.of_eq rfl rfl
  · exact fun _ kept => kept.of_eq rfl rfl
  · exact fun _ name source span kept => kept.captureBaseClass name source span

private theorem consumeText (inStep : frame.InStep) (text : LiteralText) : (frame.consumeText text).InStep :=
  inStep.of_eq rfl rfl

private theorem flush (inStep : frame.InStep) (boundary : Boundary) : (frame.flush boundary).InStep :=
  inStep.of_eq rfl rfl

/-- A piece written to the section of the base class is one more than the flag counts for. -/
theorem not_append_baseClass (inStep : frame.InStep) (piece : Piece) :
    ¬(frame.append .baseClass piece).InStep := by
  intro after
  have before := inStep_iff.mp inStep
  have longer : (frame.baseClass.pieces ++ [piece]).length = frame.hasBaseClass.toNat := inStep_iff.mp after
  rw [List.length_append, List.length_singleton] at longer
  omega

/-- A section that is moved alone leaves the flag of its frame behind. -/
theorem not_drop_baseClass (based : donor.hasBaseClass = true) : ¬(donor.drop .baseClass).InStep := by
  intro after
  have empty : (0 : Nat) = donor.hasBaseClass.toNat := inStep_iff.mp after
  rw [based] at empty
  cases empty

end InStep
end Frame

namespace FrameAction
variable {frames : Nat → Frame}

/-- The action moves or writes the section of a base class, and not the flag. -/
def divides (frames : Nat → Frame) : FrameAction → Bool
  | .append _ kind _ => kind = .baseClass
  | .merge _ kind donor _ => kind = .baseClass && (frames donor).hasBaseClass
  | _ => false

private theorem apply_inStep_iff (inStep : ∀ number, (frames number).InStep) (action : FrameAction) :
    (∀ number, (action.apply frames number).InStep) ↔ action.divides frames = false := by
  cases action with
  | append target kind piece =>
    by_cases based : kind = .baseClass
    · subst based
      refine ⟨fun after => ?_, nofun⟩
      have changed := after target
      rw [apply, Function.update_self] at changed
      exact absurd changed ((inStep target).not_append_baseClass piece)
    · refine ⟨fun _ => decide_eq_false based, fun _ => ?_⟩
      exact forall_update inStep _ ((inStep target).append based piece)
  | merge target kind donor apart =>
    constructor
    · intro after
      have left := after donor
      rw [apply, Function.update_self] at left
      apply Bool.eq_false_iff.mpr
      intro divides
      obtain ⟨based, flagged⟩ := Bool.and_eq_true_iff.mp divides
      rw [of_decide_eq_true based] at left
      exact Frame.InStep.not_drop_baseClass flagged left
    · intro whole
      have absent : kind = .baseClass → (frames donor).hasBaseClass = false := by
        intro based
        rw [divides, decide_eq_true based, Bool.true_and] at whole
        exact whole
      have merged := (inStep target).merge (inStep donor) absent
      exact forall_update (forall_update inStep target merged.1) donor merged.2
  | appendFlushed target state boundary source =>
    exact ⟨fun _ => rfl, fun _ => forall_update inStep _ ((inStep target).of_eq rfl rfl)⟩
  | absorb target child =>
    exact ⟨fun _ => rfl, fun _ => forall_update inStep _ ((inStep target).absorb (inStep child))⟩
  | markHostRequired target =>
    exact ⟨fun _ => rfl, fun _ => forall_update inStep _ ((inStep target).of_eq rfl rfl)⟩
  | captureBaseClass target name source span =>
    exact ⟨fun _ => rfl, fun _ => forall_update inStep _ ((inStep target).captureBaseClass ..)⟩

private theorem applyAll_concat (sources : Nat → SourceId) (earlier : List FrameAction) (action : FrameAction) :
    applyAll sources (earlier ++ [action]) = action.apply (applyAll sources earlier) := by
  rw [applyAll, List.foldl_append]
  rfl

/-- Frames are in step until an action divides one of them. -/
theorem applyAll_inStep_iff (sources : Nat → SourceId) (actions : List FrameAction) :
    (∀ earlier, earlier <+: actions → ∀ number, (applyAll sources earlier number).InStep) ↔
      ∀ earlier action, earlier ++ [action] <+: actions → action.divides (applyAll sources earlier) = false := by
  constructor
  · intro inStep earlier action begins
    have before := inStep earlier ((List.prefix_append _ _).trans begins)
    have after := inStep _ begins
    rw [applyAll_concat] at after
    exact (apply_inStep_iff before action).mp after
  · intro whole earlier
    induction earlier using List.reverseRecOn with
    | nil => exact fun _ number => Frame.inStep_new (sources number)
    | append_singleton earlier action ih =>
      intro begins
      have before := ih ((List.prefix_append _ _).trans begins)
      rw [applyAll_concat]
      exact (apply_inStep_iff before action).mpr (whole earlier action begins)

end FrameAction

def Walk.InStep (walk : Walk) : Prop := ∀ frame ∈ walk.current :: walk.parents, frame.InStep

namespace Walk.InStep
variable {walk : Walk}

theorem within (inStep : walk.InStep) {changed : Walk} (around : changed.parents = walk.parents)
    (kept : changed.current.InStep) : changed.InStep := by
  intro frame member
  rw [around] at member
  rcases List.mem_cons.mp member with rfl | outer
  · exact kept
  · exact inStep frame (List.mem_cons_of_mem _ outer)

theorem current (inStep : walk.InStep) : walk.current.InStep := inStep _ List.mem_cons_self

private theorem check (inStep : walk.InStep) : walk.check.InStep := inStep

theorem flush (inStep : walk.InStep) (boundary : Boundary) : (walk.flush boundary).InStep :=
  inStep.within rfl (inStep.current.flush boundary)

private theorem undergo (inStep : walk.InStep) (effect : Effect) : (walk.undergo effect).InStep :=
  inStep.within rfl (inStep.current.change effect)

private theorem descend (inStep : walk.InStep) (opened : OpenSources) (target : SourceId) :
    (walk.descend opened target).InStep := by
  intro frame member
  rcases List.mem_cons.mp member with rfl | outer
  · exact Frame.inStep_new target
  · exact inStep frame outer

private theorem ascend (inStep : walk.InStep) : walk.ascend.InStep := by
  unfold Walk.ascend
  cases around : walk.parents with
  | nil =>
    intro frame member
    cases List.mem_singleton.mp member
    exact inStep.current
  | cons parent others =>
    intro frame member
    have outer {other : Frame} (among : other ∈ parent :: others) : other.InStep :=
      inStep other (List.mem_cons_of_mem _ (around ▸ among))
    rcases List.mem_cons.mp member with rfl | among
    · exact (outer List.mem_cons_self).absorb inStep.current
    · exact outer (List.mem_cons_of_mem _ among)

end Walk.InStep

namespace Session
variable {session : Session} {root : Template} {now next : Traversal} {walk : Walk}

private theorem visitNode_inStep (inStep : walk.InStep) (source : SourceId) (node : Node) :
    (session.visitNode source walk node).InStep := by
  have flushed := inStep.check.flush .fragment
  cases node with
  | text literal => exact inStep.within rfl (inStep.current.consumeText literal)
  | directive given =>
    obtain ⟨effect, -, visited⟩ := (walk.check.flush .fragment).visitDirective_effect source given session.macros
    rw [visitNode, visited _ (.refl _)]
    exact flushed.undergo effect
  | code fragment =>
    rw [visitNode, Walk.visitCode_effect _ source fragment (.refl _) rfl]
    exact flushed.undergo _
  | inclusion inclusion =>
    cases decided : session.expansion walk.sources source inclusion with
    | unresolved =>
      rw [visitNode_unresolved decided]
      exact flushed
    | cyclic target =>
      rw [visitNode_cyclic decided]
      exact flushed
    | expand target opened =>
      rw [visitNode_expanded (expanded_of_expansion decided)]
      exact flushed.descend opened target.source

private theorem Step.inStep (step : session.Step now next) (inStep : now.walk.InStep) : next.walk.InStep := by
  cases step with
  | visit => exact visitNode_inStep inStep _ _
  | enter => exact visitNode_inStep inStep _ _
  | leave => exact (inStep.flush .endOfInput).ascend

theorem Reaches.inStep (reached : session.Reaches root now) : now.walk.InStep := by
  induction reached with
  | refl =>
    intro frame member
    cases List.mem_singleton.mp member
    exact Frame.inStep_new root.source
  | tail _ step ih => exact step.inStep ih

end Session

/-- Frames that start out empty have the flag exactly while they have a base class, and never two of them,
whatever is captured, absorbed and moved between them, until the section of a base class is written to or
is moved out of a frame that has the flag: after that they are out of step at once. Collecting does neither,
so at every place a traversal comes by, all frames are in step. -/
theorem Frame.base_class_in_step (sources : Nat → SourceId) (actions : List FrameAction) :
    ((∀ earlier, earlier <+: actions → ∀ number, (FrameAction.applyAll sources earlier number).InStep) ↔
      ∀ earlier action, earlier ++ [action] <+: actions →
        action.divides (FrameAction.applyAll sources earlier) = false) ∧
    ∀ (session : Session) (root : Template) (now : Traversal), session.Reaches root now →
      ∀ frame ∈ now.walk.current :: now.walk.parents, frame.InStep :=
  ⟨FrameAction.applyAll_inStep_iff sources actions, fun _ _ _ reached => reached.inStep⟩

namespace FrameAction

def pairedSources (number : Nat) : SourceId := if number = 0 then ⟨"a.tt"⟩ else ⟨"b.tt"⟩

def absorbing : List FrameAction :=
  [.captureBaseClass 0 "Mine" ⟨"a.tt"⟩ ⟨0, 4⟩, .captureBaseClass 1 "Theirs" ⟨"b.tt"⟩ ⟨0, 6⟩, .absorb 0 1]

def moving : List FrameAction :=
  [.captureBaseClass 1 "Base" ⟨"b.tt"⟩ ⟨0, 4⟩, .merge 0 .baseClass 1 (by decide)]

private theorem absorbing_whole (frames : Nat → Frame) : ∀ action ∈ absorbing, action.divides frames = false := by
  intro action member
  simp only [absorbing, List.mem_cons, List.not_mem_nil, or_false] at member
  rcases member with rfl | rfl | rfl <;> rfl

end FrameAction

def inheritingTemplate : Template where
  source := ⟨"a.tt"⟩
  text := "Base"
  nodes := [.directive ⟨"template", ⟨0, 0⟩, [⟨"inherits", "Base", ⟨0, 4⟩⟩], ⟨0, 4⟩⟩]

theorem Frame.base_class_in_step_absorbed :
    (∀ earlier action, earlier ++ [action] <+: FrameAction.absorbing →
      action.divides (FrameAction.applyAll FrameAction.pairedSources earlier) = false) ∧
    (FrameAction.applyAll FrameAction.pairedSources FrameAction.absorbing 0).InStep ∧
    (FrameAction.applyAll FrameAction.pairedSources FrameAction.absorbing 0).baseClass.render = "Mine" ∧
    ∃ now, Session.Reaches ⟨.none, .empty, neverCancelled⟩ inheritingTemplate now ∧
      now.walk.current.baseClass.render = "Base" ∧ ∀ frame ∈ now.walk.current :: now.walk.parents, frame.InStep := by
  have whole : ∀ earlier action, earlier ++ [action] <+: FrameAction.absorbing →
      action.divides (FrameAction.applyAll FrameAction.pairedSources earlier) = false := by
    intro earlier action begins
    exact FrameAction.absorbing_whole _ action (begins.subset (List.mem_append_right _ List.mem_cons_self))
  have visited : Session.Reaches ⟨.none, .empty, neverCancelled⟩ inheritingTemplate _ := .single (.visit rfl rfl rfl)
  obtain ⟨inStep_iff, collected⟩ := Frame.base_class_in_step FrameAction.pairedSources FrameAction.absorbing
  exact ⟨whole, inStep_iff.mpr whole _ (List.prefix_refl _) 0, by decide,
    _, visited, by decide, collected _ _ _ visited⟩

/-- The frame that is given a base class has no flag, and the one that gave it away still has it. The next
base class that is captured is then a second one. -/
theorem Frame.moved_base_class_out_of_step :
    let moved := FrameAction.applyAll FrameAction.pairedSources FrameAction.moving
    (moved 0).hasBaseClass = false ∧ (moved 0).baseClass.render = "Base" ∧ ¬(moved 0).InStep ∧
    (moved 1).hasBaseClass = true ∧ (moved 1).baseClass.render = "" ∧ ¬(moved 1).InStep ∧
    (((moved 0).captureBaseClass "Other" ⟨"a.tt"⟩ ⟨0, 5⟩).baseClass.render = "BaseOther") := by
  decide

end TextTemplate
