import TextTemplate.Proofs.CapturedBases

/-! Frames absorbed one into another. A chain of includes is closed from the inside, each frame absorbed
by the one around it, but nothing depends on that: in whatever order the frames of a chain are
absorbed, as long as each goes to the one in front of it, the same frame is left. -/

namespace TextTemplate

private theorem Section.append_assoc (first second third : Section) :
    first ++ second ++ third = first ++ (second ++ third) :=
  congrArg Section.mk (List.append_assoc ..)

theorem Section.empty_append (part : Section) : ({} : Section) ++ part = part :=
  congrArg Section.mk (List.nil_append _)

namespace Frame
variable {frame outer middle inner : Frame}

/-- Where the middle frame has no flag it has no base class to be passed over. -/
theorem absorb_baseClass_assoc (outer inner : Frame) (flagged : middle.Flagged) :
    ((outer.absorb middle).absorb inner).baseClass = (outer.absorb (middle.absorb inner)).baseClass := by
  simp only [absorb_eq]
  cases captured : outer.hasBaseClass with
  | true => simp
  | false =>
    cases based : middle.hasBaseClass with
    | true => simp
    | false =>
      have empty := flagged based
      cases inner.hasBaseClass with
      | true => simp [empty, Section.empty_append]
      | false => simp

theorem absorb_assoc (flagged : middle.Flagged) :
    (outer.absorb middle).absorb inner = outer.absorb (middle.absorb inner) := by
  have baseClass := absorb_baseClass_assoc outer inner flagged
  simp only [absorb_eq] at baseClass ⊢
  rw [Frame.mk.injEq]
  exact ⟨rfl, Section.append_assoc .., baseClass, Section.append_assoc .., Section.append_assoc ..,
    Section.append_assoc .., List.append_assoc .., Bool.or_assoc .., Bool.or_assoc .., Nat.add_assoc .., rfl⟩

private theorem new_absorb (flagged : frame.Flagged) (source : SourceId) :
    (Frame.new source).absorb frame = { frame with source, literal := .atStart } := by
  have baseClass : (if frame.hasBaseClass then frame.baseClass else {}) = frame.baseClass := by
    cases based : frame.hasBaseClass with
    | true => rfl
    | false => exact (flagged based).symm
  simpa [absorb_eq, Frame.new, Section.empty_append] using baseClass

/-- One way to absorb a chain of frames: every frame or run of frames by the one in front of it. -/
inductive Folding where
  | single (frame : Frame)
  | join (outer inner : Folding)
  deriving Repr

namespace Folding

def frames : Folding → List Frame
  | single frame => [frame]
  | join outer inner => outer.frames ++ inner.frames

def absorbed : Folding → Frame
  | single frame => frame
  | join outer inner => outer.absorbed.absorb inner.absorbed

/-- From the inside: the innermost frame goes to the one around it, and so on. -/
def fromInside (inner : Folding) : List Frame → Folding
  | [] => inner
  | outer :: around => fromInside (.join (.single outer) inner) around

private theorem fromInside_frames (inner : Folding) (around : List Frame) :
    (fromInside inner around).frames = around.reverse ++ inner.frames := by
  induction around generalizing inner with
  | nil => rfl
  | cons outer more ih => rw [fromInside, ih, List.reverse_cons, List.append_assoc]; rfl

private theorem fromInside_absorbed (inner : Folding) (around : List Frame) :
    (fromInside inner around).absorbed =
      around.foldl (fun child parent => parent.absorb child) inner.absorbed := by
  induction around generalizing inner with
  | nil => rfl
  | cons outer more ih => exact ih _

private theorem absorbed_flagged (folding : Folding) (flagged : ∀ frame ∈ folding.frames, frame.Flagged) :
    folding.absorbed.Flagged := by
  induction folding with
  | single frame => exact flagged frame List.mem_cons_self
  | join outer inner whole _ => exact (whole fun frame member => flagged frame (List.mem_append_left _ member)).absorb

private theorem absorb_absorbed (folding : Folding) (flagged : ∀ frame ∈ folding.frames, frame.Flagged)
    (outer : Frame) :
    outer.absorb folding.absorbed = folding.frames.foldl Frame.absorb outer := by
  induction folding generalizing outer with
  | single frame => rfl
  | join front back first second =>
    have ahead : ∀ frame ∈ front.frames, frame.Flagged := fun frame member =>
      flagged frame (List.mem_append_left _ member)
    have behind : ∀ frame ∈ back.frames, frame.Flagged := fun frame member =>
      flagged frame (List.mem_append_right _ member)
    calc outer.absorb (front.absorbed.absorb back.absorbed)
      _ = (outer.absorb front.absorbed).absorb back.absorbed := (absorb_assoc (front.absorbed_flagged ahead)).symm
      _ = back.frames.foldl Frame.absorb (front.frames.foldl Frame.absorb outer) := by
        rw [first ahead, second behind]
      _ = (front.frames ++ back.frames).foldl Frame.absorb outer := List.foldl_append.symm

private theorem absorbed_eq_foldl (folding : Folding) (flagged : ∀ frame ∈ folding.frames, frame.Flagged) :
    ∃ first rest, folding.frames = first :: rest ∧ folding.absorbed = rest.foldl Frame.absorb first := by
  induction folding with
  | single frame => exact ⟨frame, [], rfl, rfl⟩
  | join front back whole _ =>
    obtain ⟨first, rest, frames, absorbed⟩ := whole fun frame member =>
      flagged frame (List.mem_append_left _ member)
    refine ⟨first, rest ++ back.frames, ?_, ?_⟩
    · rw [Folding.frames, frames]
      rfl
    · rw [Folding.absorbed, absorb_absorbed _ fun frame member => flagged frame (List.mem_append_right _ member)]
      rw [absorbed, List.foldl_append]

/-- What is left of a chain does not depend on the order. -/
theorem absorbed_eq {folding other : Folding} (same : folding.frames = other.frames)
    (flagged : ∀ frame ∈ folding.frames, frame.Flagged) : folding.absorbed = other.absorbed := by
  obtain ⟨first, rest, frames, absorbed⟩ := folding.absorbed_eq_foldl flagged
  obtain ⟨head, tail, others, left⟩ := other.absorbed_eq_foldl (same ▸ flagged)
  rw [same, others] at frames
  cases frames
  rw [absorbed, left]

end Folding

end Frame

namespace Session
variable {session : Session} {root : Template} {now : Traversal}

theorem Reaches.flagged (reached : session.Reaches root now) :
    ∀ frame ∈ now.walk.current :: now.walk.parents, frame.Flagged :=
  fun frame member => (reached.inStep frame member).flagged

/-- Closing all includes that are open leaves what any other order of absorbing their frames leaves. -/
theorem Reaches.folded (reached : session.Reaches root now) {folding : Frame.Folding}
    (chain : folding.frames = (now.walk.current :: now.walk.parents).reverse) :
    folding.absorbed = now.walk.parents.foldl (fun child parent => parent.absorb child) now.walk.current := by
  have same : folding.frames = (Frame.Folding.fromInside (.single now.walk.current) now.walk.parents).frames := by
    rw [chain, Frame.Folding.fromInside_frames, List.reverse_cons]
    rfl
  have flagged : ∀ frame ∈ folding.frames, frame.Flagged := by
    intro frame member
    rw [chain, List.mem_reverse] at member
    exact reached.flagged frame member
  exact (Frame.Folding.absorbed_eq same flagged).trans (Frame.Folding.fromInside_absorbed _ _)

end Session

/-- Absorbing is associative as long as a frame without the flag of a base class has none. A new frame
changes nothing when it is absorbed, and is made into the frame it absorbs but for the source and the text
held back. So a chain of frames comes to the same in whatever order they are absorbed; and a traversal only
comes by chains that do, the includes of which it closes from the inside. -/
theorem Frame.absorb_nested :
    (∀ outer middle inner : Frame, outer.Flagged → middle.Flagged → inner.Flagged →
      (outer.absorb middle).absorb inner = outer.absorb (middle.absorb inner)) ∧
    (∀ (frame : Frame) (source : SourceId), frame.Flagged → frame.absorb (Frame.new source) = frame ∧
      (Frame.new source).absorb frame = { frame with source, literal := .atStart }) ∧
    (∀ folding other : Folding, folding.frames = other.frames → (∀ frame ∈ folding.frames, frame.Flagged) →
      folding.absorbed = other.absorbed) ∧
    ∀ (session : Session) (root : Template) (now : Traversal), session.Reaches root now →
      (∀ frame ∈ now.walk.current :: now.walk.parents, frame.Flagged) ∧
      ∀ folding : Folding, folding.frames = (now.walk.current :: now.walk.parents).reverse →
        folding.absorbed = now.walk.parents.foldl (fun child parent => parent.absorb child) now.walk.current := by
  refine ⟨?_, ?_, ?_, ?_⟩
  · intro outer middle inner _ flagged _
    exact absorb_assoc flagged
  · intro frame source flagged
    exact ⟨absorb_new frame source, new_absorb flagged source⟩
  · intro folding other same flagged
    exact Folding.absorbed_eq same flagged
  · intro session root now reached
    exact ⟨reached.flagged, fun folding chain => reached.folded chain⟩

def Frame.chain : List Frame :=
  [(Frame.new ⟨"a.tt"⟩).append .transformation (.plain "one();\n"),
   (Frame.new ⟨"b.tt"⟩).captureBaseClass "Middle" ⟨"b.tt"⟩ ⟨0, 6⟩,
   (Frame.new ⟨"c.tt"⟩).captureBaseClass "Inner" ⟨"c.tt"⟩ ⟨0, 5⟩]

def nestedTemplate : Template := ⟨⟨"b.tt"⟩, "", []⟩

def nestingTemplate : Template := ⟨⟨"a.tt"⟩, "", [.inclusion ⟨"b.tt", ⟨0, 0⟩, ⟨0, 0⟩⟩]⟩

def nestingSession : Session where
  includes :=
    { templates := [nestedTemplate]
      resolve? := fun _ _ => some nestedTemplate
      resolve?_mem := fun found => by cases found; exact List.mem_cons_self }
  macros := .empty
  cancelled := neverCancelled

theorem Frame.absorb_nested_chain :
    ∃ outer middle inner, Frame.chain = [outer, middle, inner] ∧
      outer.Flagged ∧ middle.Flagged ∧ inner.Flagged ∧
      (outer.absorb middle).absorb inner = outer.absorb (middle.absorb inner) ∧
      (outer.absorb (middle.absorb inner)).baseClass.render = "Middle" ∧
      (Frame.new ⟨"d.tt"⟩).absorb inner = { inner with source := ⟨"d.tt"⟩, literal := .atStart } ∧
      (Folding.join (.join (.single outer) (.single middle)) (.single inner)).absorbed =
        (Folding.join (.single outer) (.join (.single middle) (.single inner))).absorbed ∧
      ∃ now, nestingSession.Reaches nestingTemplate now ∧ now.walk.parents.length = 1 ∧
        ∀ frame ∈ now.walk.current :: now.walk.parents, frame.Flagged := by
  have elsewhere : SectionKind.transformation ≠ .baseClass := by decide
  have outer := (Adds.append elsewhere (.plain "one();\n")).flagged _ (flagged_new ⟨"a.tt"⟩)
  have middle := (Adds.captureBaseClass "Middle" ⟨"b.tt"⟩ ⟨0, 6⟩).flagged _ (flagged_new ⟨"b.tt"⟩)
  have inner := (Adds.captureBaseClass "Inner" ⟨"c.tt"⟩ ⟨0, 5⟩).flagged _ (flagged_new ⟨"c.tt"⟩)
  have entered : nestingSession.Reaches nestingTemplate _ := .single (.enter rfl rfl rfl)
  refine ⟨_, _, _, rfl, outer, middle, inner, absorb_nested.1 _ _ _ outer middle inner, by decide,
    (absorb_nested.2.1 _ _ inner).2, absorb_nested.2.2.1 _ _ rfl ?_, _, entered, rfl,
    (absorb_nested.2.2.2 _ _ _ entered).1⟩
  intro frame member
  simp only [Folding.frames, List.cons_append, List.nil_append, List.mem_cons,
    List.not_mem_nil, or_false] at member
  rcases member with rfl | rfl | rfl
  · exact outer
  · exact middle
  · exact inner

end TextTemplate
