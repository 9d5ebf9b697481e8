import Mathlib.Data.List.Forall2
import TextTemplate.Proofs.Boundaries
import TextTemplate.Proofs.BuiltTemplates

/-! A template written step by step and its text, side by side. The nodes tile the text, one node for
each step; inside of a node, what it repeats stands where it says, whole and in order. -/

namespace TextTemplate
open Text

/-- From one offset to another each span starts where the one in front of it stops. -/
inductive Span.Tiles : Nat → List Span → Nat → Prop where
  | nil (offset : Nat) : Tiles offset [] offset
  | cons {start stop last : Nat} {rest : List Span} (forward : start ≤ stop) (behind : Tiles stop rest last) :
      Tiles start (⟨start, stop⟩ :: rest) last

/-- The span leads from one boundary of the text to another, and between them stands `part`. -/
structure Template.Quotes (template : Template) (span : Span) (part : String) : Prop where
  starts : IsBoundary template.text.toList span.start
  stops : IsBoundary template.text.toList span.stop
  slice : template.slice? span = some part

private theorem Span.Covers.quotes {template : Template} {span : Span} {part : String}
    (covers : span.Covers template.text.toList part.toList) : template.Quotes span part where
  starts := by
    obtain ⟨before, after, split, start, -⟩ := covers
    exact ⟨before, part.toList ++ after, split, start⟩
  stops := by
    obtain ⟨before, after, split, -, stop⟩ := covers
    refine ⟨before ++ part.toList, after, ?_, ?_⟩
    · rw [split, List.append_assoc]
    · rw [stop, width_append]
  slice := by
    rw [Template.slice?, Span.slice?_of_covers covers, String.ofList_toList]

namespace BuildStep

private theorem nodesFrom_tiles (steps : List BuildStep) (start : Nat) :
    Span.Tiles start ((nodesFrom start steps).map Node.span)
      (start + (String.join (steps.map markup)).utf8ByteSize) := by
  induction steps generalizing start with
  | nil => exact .nil start
  | cons step rest ih =>
    rw [nodesFrom, List.map_cons, node_span, List.map_cons, String.join_cons, String.utf8ByteSize_append,
      ← Nat.add_assoc]
    apply Span.Tiles.cons
    · exact Nat.le_add_right _ _
    · exact ih (start + step.markup.utf8ByteSize)

private theorem nodesFrom_written (steps : List BuildStep) (before : List Char) :
    List.Forall₂ (fun node step => node = BuildStep.node node.span.start step ∧
        node.span.Covers (before ++ (String.join (steps.map markup)).toList) step.markup.toList)
      (nodesFrom (width before) steps) steps := by
  induction steps generalizing before with
  | nil => exact .nil
  | cons step rest ih =>
    have reached : width (before ++ step.markup.toList) = width before + step.markup.utf8ByteSize := by
      rw [width_append, width_toList]
    have later := ih (before ++ step.markup.toList)
    rw [reached] at later
    rw [nodesFrom, List.map_cons, String.join_cons, String.toList_append, ← List.append_assoc]
    refine .cons ⟨?_, ?_⟩ later
    · rw [node_span]
      rfl
    · rw [node_span, List.append_assoc]
      exact spanOf_covers before _ rfl rfl

private theorem attributesFrom_inOrder (attributes : List (String × String)) (start : Nat) :
    (attributesFrom start attributes).Pairwise (fun first second => first.valueSpan.stop ≤ second.valueSpan.start) ∧
      ∀ valued ∈ attributesFrom start attributes, start ≤ valued.valueSpan.start := by
  induction attributes generalizing start with
  | nil => exact ⟨.nil, List.forall_mem_nil _⟩
  | cons given rest ih =>
    have long : (attributeMarkup given).utf8ByteSize =
        (" " ++ given.1 ++ "=\"").utf8ByteSize + given.2.utf8ByteSize + "\"".utf8ByteSize := by
      rw [attributeMarkup, String.utf8ByteSize_append, String.utf8ByteSize_append]
    obtain ⟨apart, behind⟩ := ih (start + (attributeMarkup given).utf8ByteSize)
    constructor
    · apply List.pairwise_cons.mpr
      refine ⟨?_, apart⟩
      intro valued member
      have after := behind valued member
      simp only [spanOf]
      omega
    · intro valued member
      rcases List.mem_cons.mp member with rfl | later
      · exact Nat.le_add_right _ _
      · have after := behind valued later
        omega

/-- The texts a node repeats stand one behind the other. -/
theorem node_inOrder (step : BuildStep) (start : Nat) :
    (step.node start).quotes.Pairwise fun first second => first.2.stop ≤ second.2.start := by
  cases step with
  | text content => exact List.pairwise_singleton _ _
  | inclusion file => exact List.pairwise_singleton _ _
  | code kind body => exact List.pairwise_singleton _ _
  | directive name attributes =>
    obtain ⟨apart, behind⟩ :=
      attributesFrom_inOrder attributes (spanOf (start + "<#@ ".utf8ByteSize) name).stop
    apply List.pairwise_cons.mpr
    constructor
    · intro quote quoted
      obtain ⟨valued, member, rfl⟩ := List.mem_map.mp quoted
      exact behind valued member
    · exact List.pairwise_map.mpr apart

end BuildStep

/-- Whatever the steps, the nodes of the template tile its text from end to end. There is one node for
each step, which covers the markup of the step, and every text that a node repeats lies in the node, is
what the text holds there, and stands behind those the node repeats before it. All of these ranges
start and stop between characters. -/
theorem Template.build_agrees (source : SourceId) (steps : List BuildStep) :
    let template := Template.build source steps
    Span.Tiles 0 (template.nodes.map Node.span) template.text.utf8ByteSize ∧
    List.Forall₂ (fun node step => node = BuildStep.node node.span.start step ∧
      template.Quotes node.span step.markup) template.nodes steps ∧
    ∀ node ∈ template.nodes,
      (∀ quote ∈ node.quotes, node.span.start ≤ quote.2.start ∧ quote.2.stop ≤ node.span.stop ∧
        template.Quotes quote.2 quote.1) ∧
      node.quotes.Pairwise fun first second => first.2.stop ≤ second.2.start := by
  intro template
  have faithful : template.Faithful := build_faithful source steps
  refine ⟨?_, ?_, ?_⟩
  · have tiles := BuildStep.nodesFrom_tiles steps 0
    rwa [Nat.zero_add] at tiles
  · have written := BuildStep.nodesFrom_written steps []
    apply written.imp
    intro node step both
    exact ⟨both.1, both.2.quotes⟩
  · intro node member
    constructor
    · intro quote quoted
      obtain ⟨start, stop⟩ := faithful.inside node member quote quoted
      exact ⟨start, stop, (faithful.covers node member quote quoted).quotes⟩
    · obtain ⟨earlier, step, later, -, rfl⟩ := BuildStep.mem_nodesFrom member
      apply BuildStep.node_inOrder

end TextTemplate
