import TextTemplate.Proofs.LiteralRuns
import TextTemplate.Proofs.SingleFrame

/-! The transform method writes the literal text of the expanded template and runs its code, in
the order of the template. The statements are read back passage by passage, so a text that was
lost, written twice or moved across code would show as a different list of passages. -/

namespace TextTemplate

theorem Section.render_extend (part : Section) (pieces : List Piece) :
    (part.extend pieces).render = part.render ++ String.join (pieces.map Piece.text) := by
  rw [render, extend_pieces, List.map_append, String.join_append]
  rfl

/-- A stretch of an expanded template as its reader sees it. -/
inductive Passage where
  | text (content : String)
  | statement (code : String)
  | value (code : String)
  deriving DecidableEq, Repr, Inhabited

/-- What the transform method holds for one passage. -/
inductive Emitted where
  | writes (literals : List String)
  | statement (code : String)
  | value (code : String)
  deriving DecidableEq, Repr, Inhabited

namespace Emitted

def render : Emitted → String
  | .writes literals => String.join (literals.map fun literal => writeOpening ++ literal ++ writeClosing)
  | .statement code => code ++ "\n"
  | .value code => Code.toStringOpening ++ code ++ Code.toStringClosing

def literals : Emitted → List String
  | .writes literals => literals
  | _ => []

/-- The passage that the text stands for once its literals are read. -/
def passage : Emitted → Passage
  | .writes literals => .text (String.join (literals.map Code.unescape))
  | .statement code => .statement code
  | .value code => .value code

end Emitted

namespace Encounter

def startsFeature (started : Bool) : Encounter → Bool
  | .code _ depth fragment =>
    started || (!fragment.code.isEmpty && fragment.kind == .feature && depth == 0)
  | _ => started

def passages (started : Bool) : Encounter → List Passage
  | .run _ texts => [.text (String.join (texts.map LiteralText.content))]
  | .code _ depth fragment =>
    if fragment.code.isEmpty then
      []
    else
      match fragment.kind with
      | .statement => [.statement fragment.code]
      | .expression => if started && depth == 0 then [] else [.value fragment.code]
      | .feature => []
  | _ => []

end Encounter

/-- The text of the transform method, in passages. -/
structure Emits (before after : Section) (passages : List Passage) (emitted : List Emitted) : Prop where
  render : after.render = before.render ++ String.join (emitted.map Emitted.render)
  passage : emitted.map Emitted.passage = passages
  escaped : ∀ literal ∈ emitted.flatMap Emitted.literals, ∃ text, literal = Code.escape text

theorem Emits.nothing (part : Section) : Emits part part [] [] where
  render := (String.append_empty).symm
  passage := rfl
  escaped := List.forall_mem_nil _

theorem Emits.unchanged (part : Section) : Emits part (part.extend []) [] [] := by
  have same : part.extend [] = part := congrArg Section.mk (List.append_nil part.pieces)
  rw [same]
  exact .nothing part

private theorem Emits.append {first second third : Section} {front back : List Passage}
    {emitted more : List Emitted} (emits : Emits first second front emitted)
    (next : Emits second third back more) : Emits first third (front ++ back) (emitted ++ more) where
  render := by rw [next.render, emits.render, List.map_append, String.join_append, String.append_assoc]
  passage := by rw [List.map_append, emits.passage, next.passage]
  escaped literal member := by
    rw [List.flatMap_append] at member
    rcases List.mem_append.mp member with early | late
    · exact emits.escaped literal early
    · exact next.escaped literal late

theorem Emits.single (part : Section) (emitted : Emitted) {pieces : List Piece}
    (text : String.join (pieces.map Piece.text) = emitted.render)
    (escaped : ∀ literal ∈ emitted.literals, ∃ text, literal = Code.escape text) :
    Emits part (part.extend pieces) [emitted.passage] [emitted] where
  render := by rw [Section.render_extend, text]; simp
  passage := rfl
  escaped := by simpa using escaped

namespace Walk

theorem gather_started (macros : Macros) (walk : Walk) (encounter : Encounter) :
    (walk.gather macros encounter).rootFeatureStarted =
      encounter.startsFeature walk.rootFeatureStarted := by
  cases encounter with
  | run source texts => rfl
  | refused source inclusion complaint => rfl
  | expanded source inclusion target => rfl
  | directive source given =>
    obtain ⟨effect, stems, visited⟩ := gather_directive walk source given macros
    rw [visited]
    exact stems.started
  | code source depth fragment =>
    rw [gather_code]
    show startedAfter _ fragment = _
    unfold startedAfter Encounter.startsFeature
    cases empty : fragment.code.isEmpty <;> simp only [check, empty] <;> simp

end Walk

def Passage.content : Passage → String
  | .text content => content
  | _ => ""

end TextTemplate
