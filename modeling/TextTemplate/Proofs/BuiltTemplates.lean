import TextTemplate.Bundle
import TextTemplate.Proofs.Slices
import TextTemplate.Template.Builder

/-! The nodes of a template written step by step repeat its text at the spans they give, and
follow each other in it. Statements on generated programs use these two facts and nothing else of
how a template was built. -/

namespace TextTemplate
open Text

/-- The texts a node repeats, with the spans it gives for them. -/
def Node.quotes : Node → List (String × Span)
  | .text literal => [(literal.content, literal.span)]
  | .directive given =>
    (given.name, given.nameSpan) :: given.attributes.map fun valued => (valued.value, valued.valueSpan)
  | .code fragment => [(fragment.code, fragment.codeSpan)]
  | .inclusion reference => [(reference.file, reference.fileSpan)]

def Node.isText : Node → Bool
  | .text _ => true
  | _ => false

theorem Node.exists_text {node : Node} (textual : node.isText = true) : ∃ literal, node = .text literal := by
  cases node with
  | text literal => exact ⟨literal, rfl⟩
  | directive given => cases textual
  | code fragment => cases textual
  | inclusion inclusion => cases textual

namespace Template

structure Faithful (template : Template) : Prop where
  covers : ∀ node ∈ template.nodes, ∀ quote ∈ node.quotes,
    quote.2.Covers template.text.toList quote.1.toList
  inside : ∀ node ∈ template.nodes, ∀ quote ∈ node.quotes,
    node.span.start ≤ quote.2.start ∧ quote.2.stop ≤ node.span.stop
  apart : template.nodes.Pairwise fun first second => first.span.stop ≤ second.span.start

def IsTextAt (template : Template) (offset : Nat) : Prop :=
  ∃ literal, .text literal ∈ template.nodes ∧ literal.span.contains offset = true

theorem Faithful.not_isTextAt {template : Template} (faithful : template.Faithful) {node : Node}
    (member : node ∈ template.nodes) (other : node.isText = false) {quote : String × Span}
    (quoted : quote ∈ node.quotes) {offset : Nat} (within : quote.2.contains offset = true) :
    ¬template.IsTextAt offset := by
  rintro ⟨literal, text, contained⟩
  have inside := faithful.inside node member quote quoted
  rw [Span.contains_iff] at within contained
  obtain ⟨i, small, rfl⟩ := List.mem_iff_getElem.mp member
  obtain ⟨j, bound, same⟩ := List.mem_iff_getElem.mp text
  have order := List.pairwise_iff_getElem.mp faithful.apart
  rcases Nat.lt_trichotomy i j with before | rfl | after
  · have earlier := order i j small bound before
    rw [same, Node.span] at earlier
    omega
  · rw [same] at other
    cases other
  · have later := order j i bound small after
    rw [same, Node.span] at later
    omega

end Template

namespace BuildStep

theorem spanOf_covers (before after : List Char) {text : List Char} {start : Nat} {part : String}
    (split : text = before ++ (part.toList ++ after)) (reached : start = width before) :
    (spanOf start part).Covers text part.toList :=
  ⟨before, after, split, reached, by rw [spanOf, width_toList, reached]⟩

theorem node_span (start : Nat) (step : BuildStep) : (step.node start).span = spanOf start step.markup := by
  cases step <;> rfl

/-- Every node is that of a step, written where the steps in front of it end. -/
theorem mem_nodesFrom {steps : List BuildStep} {start : Nat} {node : Node} (member : node ∈ nodesFrom start steps) :
    ∃ earlier step later, steps = earlier ++ step :: later ∧
      node = step.node (start + (String.join (earlier.map markup)).utf8ByteSize) := by
  induction steps generalizing start with
  | nil => cases member
  | cons first rest ih =>
    rcases List.mem_cons.mp member with rfl | behind
    · exact ⟨[], first, rest, rfl, rfl⟩
    · obtain ⟨earlier, step, later, rfl, rfl⟩ := ih behind
      refine ⟨first :: earlier, step, later, rfl, ?_⟩
      rw [List.map_cons, String.join_cons, String.utf8ByteSize_append, Nat.add_assoc]

private theorem attributesFrom_covers (attributes : List (String × String)) (before after : List Char) :
    ∀ valued ∈ attributesFrom (width before) attributes,
      valued.valueSpan.Covers
        (before ++ ((String.join (attributes.map attributeMarkup)).toList ++ after)) valued.value.toList ∧
      width before ≤ valued.valueSpan.start ∧
      valued.valueSpan.stop ≤
        width before + (String.join (attributes.map attributeMarkup)).utf8ByteSize := by
  induction attributes generalizing before with
  | nil => exact List.forall_mem_nil _
  | cons given rest ih =>
    have written : (attributeMarkup given).toList =
        (" " ++ given.1 ++ "=\"").toList ++ (given.2.toList ++ ['"']) := by
      simp [attributeMarkup]
    have long : (attributeMarkup given).utf8ByteSize =
        (" " ++ given.1 ++ "=\"").utf8ByteSize + given.2.utf8ByteSize + 1 := by
      rw [← width_toList, written, width_append, width_append, width_toList, width_toList]
      rfl
    intro valued member
    rw [List.map_cons, String.join_cons, String.toList_append, String.utf8ByteSize_append]
    rcases List.mem_cons.mp member with rfl | later
    · refine ⟨spanOf_covers (before ++ (" " ++ given.1 ++ "=\"").toList)
        ('"' :: ((String.join (rest.map attributeMarkup)).toList ++ after)) ?_ ?_, ?_, ?_⟩
      · rw [written]
        simp only [List.append_assoc, List.cons_append, List.nil_append]
      · rw [width_append, width_toList]
      · exact Nat.le_add_right _ _
      · simp only [spanOf]
        omega
    · have reached : width (before ++ (attributeMarkup given).toList) =
          width before + (attributeMarkup given).utf8ByteSize := by
        rw [width_append, width_toList]
      obtain ⟨covers, lower, upper⟩ :=
        ih (before ++ (attributeMarkup given).toList) valued (by rwa [reached])
      rw [reached] at lower upper
      refine ⟨?_, by omega, by omega⟩
      simpa only [List.append_assoc] using covers

private theorem node_quotes (step : BuildStep) (before after : List Char) :
    ∀ quote ∈ (step.node (width before)).quotes,
      quote.2.Covers (before ++ (step.markup.toList ++ after)) quote.1.toList ∧
      width before ≤ quote.2.start ∧ quote.2.stop ≤ width before + step.markup.utf8ByteSize := by
  have single (opening part closing : String) (whole : step.markup = opening ++ part ++ closing) :
      let span := spanOf (width before + opening.utf8ByteSize) part
      span.Covers (before ++ (step.markup.toList ++ after)) part.toList ∧
        width before ≤ span.start ∧ span.stop ≤ width before + step.markup.utf8ByteSize := by
    refine ⟨spanOf_covers (before ++ opening.toList) (closing.toList ++ after) ?_ ?_,
      Nat.le_add_right _ _, ?_⟩
    · simp [whole]
    · rw [width_append, width_toList]
    · simp only [spanOf, whole, String.utf8ByteSize_append]
      omega
  cases step with
  | text content =>
    intro quote member
    simp only [node, Node.quotes, List.mem_singleton] at member
    subst member
    exact ⟨spanOf_covers before after rfl rfl, Nat.le_refl _, Nat.le_refl _⟩
  | inclusion file =>
    intro quote member
    simp only [node, Node.quotes, List.mem_singleton] at member
    subst member
    exact single "<#@ include file=\"" file "\" #>" rfl
  | code kind body =>
    intro quote member
    simp only [node, Node.quotes, List.mem_singleton] at member
    subst member
    exact single (opening kind) body "#>" rfl
  | directive name attributes =>
    intro quote member
    simp only [node, Node.quotes, List.mem_cons, List.mem_map] at member
    rcases member with rfl | ⟨given, written, rfl⟩
    · exact single "<#@ " name (String.join (attributes.map attributeMarkup) ++ " #>")
        (String.append_assoc ..)
    · have reached : width (before ++ ("<#@ " ++ name).toList) =
          (spanOf (width before + "<#@ ".utf8ByteSize) name).stop := by
        simp only [width_append, width_toList, String.utf8ByteSize_append, spanOf]
        omega
      obtain ⟨covers, lower, upper⟩ := attributesFrom_covers attributes
        (before ++ ("<#@ " ++ name).toList) (" #>".toList ++ after) given (by rwa [reached])
      simp only [width_append, width_toList, String.utf8ByteSize_append] at lower upper
      have whole : (directive name attributes).markup =
          "<#@ " ++ name ++ String.join (attributes.map attributeMarkup) ++ " #>" := rfl
      have long := congrArg String.utf8ByteSize whole
      simp only [String.utf8ByteSize_append] at long
      refine ⟨?_, ?_, ?_⟩
      · rw [whole]
        simpa only [String.toList_append, List.append_assoc] using covers
      · show width before ≤ given.valueSpan.start
        omega
      · show given.valueSpan.stop ≤ _
        omega

/-- Nodes written behind `before` repeat the text at the spans they give and follow each other. -/
theorem nodesFrom_faithful (steps : List BuildStep) (before : List Char) :
    let nodes := nodesFrom (width before) steps
    nodes.Pairwise (fun first second => first.span.stop ≤ second.span.start) ∧
      ∀ node ∈ nodes, width before ≤ node.span.start ∧ ∀ quote ∈ node.quotes,
        quote.2.Covers (before ++ (String.join (steps.map markup)).toList) quote.1.toList ∧
        node.span.start ≤ quote.2.start ∧ quote.2.stop ≤ node.span.stop := by
  induction steps generalizing before with
  | nil => exact ⟨.nil, List.forall_mem_nil _⟩
  | cons step rest ih =>
    have reached : width (before ++ step.markup.toList) = width before + step.markup.utf8ByteSize := by
      rw [width_append, width_toList]
    obtain ⟨apart, later⟩ := ih (before ++ step.markup.toList)
    rw [reached] at apart later
    rw [List.map_cons, String.join_cons, String.toList_append, ← List.append_assoc]
    refine ⟨List.pairwise_cons.mpr ⟨fun node member => ?_, apart⟩, fun node member => ?_⟩
    · rw [node_span]
      exact (later node member).1
    · rcases List.mem_cons.mp member with rfl | member
      · refine ⟨by rw [node_span]; exact Nat.le_refl _, fun quote quoted => ?_⟩
        rw [node_span, List.append_assoc]
        exact node_quotes step before _ quote quoted
      · obtain ⟨lower, quotes⟩ := later node member
        exact ⟨by omega, quotes⟩

end BuildStep

theorem Template.build_faithful (source : SourceId) (steps : List BuildStep) :
    (Template.build source steps).Faithful := by
  obtain ⟨apart, nodes⟩ := BuildStep.nodesFrom_faithful steps []
  exact ⟨fun node member quote quoted => ((nodes node member).2 quote quoted).1,
    fun node member quote quoted => ((nodes node member).2 quote quoted).2, apart⟩

theorem Template.build_markup {source : SourceId} {steps : List BuildStep} {node : Node}
    (member : node ∈ (Template.build source steps).nodes) : ∃ (step : BuildStep) (start : Nat), node = step.node start ∧
      node.span.Covers (Template.build source steps).text.toList step.markup.toList := by
  obtain ⟨earlier, step, later, rfl, rfl⟩ := BuildStep.mem_nodesFrom member
  refine ⟨step, _, rfl, ?_⟩
  rw [BuildStep.node_span]
  apply BuildStep.spanOf_covers (String.join (earlier.map BuildStep.markup)).toList
    (String.join (later.map BuildStep.markup)).toList
  · simp [build, String.join_append, String.join_cons]
  · rw [Nat.zero_add, width_toList]

namespace Bundle

def IsBuilt (bundle : Bundle) : Prop :=
  ∀ template ∈ bundle.templates, ∃ steps, template = .build template.source steps

/-- The texts are short enough for their offsets to be words, as texts in memory are. -/
def Addressable (bundle : Bundle) : Prop :=
  ∀ template ∈ bundle.templates, template.text.utf8ByteSize < offsetBound

theorem IsBuilt.faithful {bundle : Bundle} (built : bundle.IsBuilt) {template : Template}
    (member : template ∈ bundle.templates) : template.Faithful := by
  obtain ⟨steps, written⟩ := built template member
  rw [written]
  exact Template.build_faithful template.source steps

end Bundle

end TextTemplate
