import TextTemplate.Proofs.ChangedBundles

/-! A text may be cut into parts wherever one character ends and the next begins. The parts touch, so
a run joins them to what the whole text is to it; empty parts count for nothing. A program does not
show how the texts of its templates were cut. -/

namespace TextTemplate

def LiteralText.consecutive : Nat → List String → List LiteralText
  | _, [] => []
  | start, part :: rest =>
    ⟨part, BuildStep.spanOf start part⟩ :: consecutive (start + part.utf8ByteSize) rest

def LiteralText.spanning (start : Nat) (content : String) : LiteralText :=
  ⟨content, BuildStep.spanOf start content⟩

namespace Segment

private theorem extend_ne_nil (text : LiteralText) (segments : List Segment) : extend text segments ≠ [] := by
  fun_cases extend text segments <;> exact List.cons_ne_nil _ _

private theorem extend_cons (text : LiteralText) (first : Segment) {rest : List Segment} (more : rest ≠ []) :
    extend text (first :: rest) = first :: extend text rest := by
  cases rest with
  | nil => exact absurd rfl more
  | cons second rest => rfl

private theorem extend_extend {first second : LiteralText} (touching : first.span.stop = second.span.start)
    (segments : List Segment) : extend second (extend first segments) =
      extend ⟨first.content ++ second.content, ⟨first.span.start, second.span.stop⟩⟩ segments := by
  have joined (segment : Segment) (last : segment.span.stop = second.span.start) :
      extend second [segment] =
        [⟨segment.text ++ second.content, ⟨segment.span.start, second.span.stop⟩⟩] := by
    rw [extend, if_pos last]
  fun_induction extend first segments with
  | case1 => exact joined _ touching
  | case2 last follows => rw [joined _ touching, extend, if_pos follows, String.append_assoc]
  | case3 last apart =>
    rw [extend_cons _ _ (List.cons_ne_nil _ _), joined _ touching, extend, if_neg apart]
  | case4 segment rest more ih =>
    rw [extend_cons _ _ (extend_ne_nil _ _), ih, extend_cons _ _ more]

end Segment

namespace LiteralState

theorem consume_segments (state : LiteralState) (text : LiteralText) :
    (state.consume text).segments =
      if text.content = "" then state.segments else Segment.extend text state.segments := by
  unfold consume
  by_cases empty : text.content = ""
  · rw [if_pos (String.isEmpty_iff.mpr empty), if_pos empty]
    rfl
  · rw [if_neg fun none => empty (String.isEmpty_iff.mp none), if_neg empty]
    rfl

/-- However a text is cut, consuming its parts in turn leaves the segments that the whole leaves. -/
theorem consume_consecutive (parts : List String) (start : Nat) (state : LiteralState) :
    ((LiteralText.consecutive start parts).foldl consume state).segments =
      (state.consume (.spanning start (String.join parts))).segments := by
  induction parts generalizing start state with
  | nil => rw [consume_segments]; rfl
  | cons part rest ih =>
    rw [LiteralText.consecutive, List.foldl_cons, ih, String.join_cons]
    simp only [consume_segments, LiteralText.spanning]
    by_cases first : part = ""
    · subst first
      rw [if_pos rfl, String.empty_append]
      rfl
    · by_cases others : String.join rest = ""
      · rw [others, if_pos rfl, String.append_empty]
      · have whole : part ++ String.join rest ≠ "" := by simp [first]
        rw [if_neg first, if_neg others, if_neg whole, Segment.extend_extend rfl]
        simp only [BuildStep.spanOf, String.utf8ByteSize_append, Nat.add_assoc]

def Joins (held others : List LiteralText) : Prop :=
  (held.foldl consume .atStart).segments = (others.foldl consume .atStart).segments

end LiteralState

/-- A program cannot tell one list of encounters from the other. -/
structure Encounter.Indistinct (encounters others : List Encounter) : Prop where
  concurs : ∀ macros first second, Walk.Concurs first second →
    (encounters.foldl (Walk.gather macros) first).Concurs (others.foldl (Walk.gather macros) second)
  room : ∀ macros first second, Walk.Concurs first second →
    second.affordsAll macros others = first.affordsAll macros encounters
  problems : others.filterMap problem? = encounters.filterMap problem?

namespace Change

/-- Any text cut into parts, between any of its characters and as often as one likes. -/
def cuttingTexts : Change where
  texts literal parts := ∃ cut : List String, String.join cut = literal.content ∧
    parts = LiteralText.consecutive literal.span.start cut
  directive _ _ _ := False

def cuttingWideTexts : Change where
  texts literal parts := ∃ start, ∃ cut : List String, literal = .spanning start (String.join cut) ∧
    parts = LiteralText.consecutive start cut
  directive _ _ _ := False

private theorem cuttingWideTexts_carries (session : Session) :
    cuttingWideTexts.Carries session LiteralState.Joins Encounter.Indistinct where
  start := rfl
  hold := by
    intro held others literal joins
    rw [LiteralState.Joins, List.foldl_concat, List.foldl_concat, LiteralState.consume_segments,
      LiteralState.consume_segments, joins]
  texts := by
    rintro held others literal parts ⟨start, cut, rfl, rfl⟩ joins
    rw [LiteralState.Joins, List.foldl_concat, List.foldl_append, LiteralState.consume_consecutive,
      LiteralState.consume_segments, LiteralState.consume_segments, joins]
  run := by
    intro held others source joins
    have same : Emission.ofTexts source held = Emission.ofTexts source others :=
      congrArg (Emission.ofSegments source) joins
    constructor
    · intro macros first second concurs
      rw [Walk.Mirrors.gather_ofHeld, Walk.Mirrors.gather_ofHeld]
      have alike := concurs.alike
      refine ⟨?_, ⟨alike.1, alike.2, alike.3⟩, concurs.references⟩
      show second.current.appendEmission _ = first.current.appendEmission _
      rw [concurs.current, same]
    · intro macros first second _
      rw [Walk.affords_ofHeld, Walk.affords_ofHeld, same]
    · unfold Encounter.ofHeld
      split <;> split <;> rfl
  append := by
    intro front others back more first second
    constructor
    · intro macros walk other concurs
      rw [List.foldl_append, List.foldl_append]
      apply second.concurs
      exact first.concurs macros walk other concurs
    · intro macros walk other concurs
      rw [Walk.affordsAll_append, Walk.affordsAll_append, first.room macros walk other concurs,
        second.room macros _ _ (first.concurs macros walk other concurs)]
    · rw [List.filterMap_append, List.filterMap_append, first.problems, second.problems]
  same encounter :=
    ⟨fun macros _ _ concurs => concurs.gather macros encounter,
      fun _ _ _ concurs => congrArg (· && true) (concurs.alike.affords encounter), rfl⟩
  directive impossible := impossible.elim

end Change

namespace Bundle
variable {bundle other : Bundle}

private theorem IsBuilt.wide (built : bundle.IsBuilt) {template : Template} (member : template ∈ bundle.templates)
    {literal : LiteralText} (own : .text literal ∈ template.nodes) :
    literal = .spanning literal.span.start literal.content := by
  have covers := (built.faithful member).covers _ own _ (List.mem_singleton_self _)
  have stop := covers.stop_eq
  rw [Text.width_toList] at stop
  show literal = ⟨literal.content, ⟨literal.span.start, literal.span.start + literal.content.utf8ByteSize⟩⟩
  rw [← stop]

/-- Cutting any texts of templates that were built, at any characters, changes nothing of the program:
neither the code, nor where it comes from and on which lines, nor problems and references. -/
theorem generate_cut (built : bundle.IsBuilt) (cuts : bundle.Changed .cuttingTexts other)
    (options : Options) : other.generate options = bundle.generate options := by
  have wide : bundle.Changed .cuttingWideTexts other := by
    apply cuts.imp
    · intro template member literal parts own changed
      obtain ⟨cut, whole, rfl⟩ := changed
      refine ⟨literal.span.start, cut, ?_, rfl⟩
      rw [whole]
      exact built.wide member own
    · intro source node given impossible
      exact impossible
  have indistinct := wide.encounters_related (Change.cuttingWideTexts_carries (bundle.session options))
  apply wide.generate_eq
  · intro macros
    exact indistinct.concurs macros _ _ (.refl _)
  · rw [fits_encounters, fits_encounters, wide.root, wide.macros]
    exact indistinct.room _ _ _ (.refl _)
  · exact indistinct.problems

def twoLines : Template := .build ⟨"a"⟩ [.text "x\r\ny", .inclusion "b", .inclusion "b"]

def twoTexts : Template := .build ⟨"b"⟩ [.text "\"é", .text "\n日"]

def wholeTexts : Bundle := ⟨⟨"a"⟩, [twoLines, twoTexts], .empty⟩

def cutTexts : Bundle where
  root := ⟨"a"⟩
  templates := [
    { twoLines with
      nodes := [.text ⟨"x\r", ⟨0, 2⟩⟩, .text ⟨"", ⟨2, 2⟩⟩, .text ⟨"\ny", ⟨2, 4⟩⟩,
        .inclusion ⟨"b", ⟨22, 23⟩, ⟨4, 27⟩⟩, .inclusion ⟨"b", ⟨45, 46⟩, ⟨27, 50⟩⟩] },
    { twoTexts with
      nodes := [.text ⟨"\"é", ⟨0, 3⟩⟩, .text ⟨"\n", ⟨3, 4⟩⟩, .text ⟨"日", ⟨4, 7⟩⟩] }]

theorem wholeTexts_built : wholeTexts.IsBuilt := by
  intro template member
  simp only [wholeTexts, List.mem_cons, List.not_mem_nil, or_false] at member
  rcases member with rfl | rfl
  · exact ⟨_, rfl⟩
  · exact ⟨_, rfl⟩

theorem twoLines_nodes : twoLines.nodes = [.text ⟨"x\r\ny", ⟨0, 4⟩⟩, .inclusion ⟨"b", ⟨22, 23⟩, ⟨4, 27⟩⟩,
    .inclusion ⟨"b", ⟨45, 46⟩, ⟨27, 50⟩⟩] := by
  decide

theorem twoTexts_nodes : twoTexts.nodes = [.text ⟨"\"é", ⟨0, 3⟩⟩, .text ⟨"\n日", ⟨3, 7⟩⟩] := by
  decide

private theorem wholeTexts_cut : wholeTexts.Changed .cuttingTexts cutTexts := by
  refine ⟨rfl, rfl, .cons ⟨rfl, rfl, ?_⟩ (.cons ⟨rfl, rfl, ?_⟩ .nil)⟩
  · have parts : Change.cuttingTexts.texts ⟨"x\r\ny", ⟨0, 4⟩⟩
        [⟨"x\r", ⟨0, 2⟩⟩, ⟨"", ⟨2, 2⟩⟩, ⟨"\ny", ⟨2, 4⟩⟩] :=
      ⟨["x\r", "", "\ny"], by decide, by decide⟩
    rw [twoLines_nodes]
    exact .texts parts (.keep (.keep .nil))
  · have parts : Change.cuttingTexts.texts ⟨"\n日", ⟨3, 7⟩⟩ [⟨"\n", ⟨3, 4⟩⟩, ⟨"日", ⟨4, 7⟩⟩] :=
      ⟨["\n", "日"], by decide, by decide⟩
    rw [twoTexts_nodes]
    exact .keep (.texts parts .nil)

theorem generate_cut_lines : wholeTexts.IsBuilt ∧ wholeTexts.Changed .cuttingTexts cutTexts ∧
    (∃ program, wholeTexts.generate {} = .ok program) ∧ cutTexts.generate {} = wholeTexts.generate {} := by
  refine ⟨wholeTexts_built, wholeTexts_cut,
    ⟨_, generate_of_root (show _ = some twoLines by decide) (by decide) {}⟩, ?_⟩
  exact generate_cut wholeTexts_built wholeTexts_cut {}

end Bundle

end TextTemplate
