import TextTemplate.Template

/-!
Templates written step by step. A step knows its markup and, given the offset it is written
at, its node; the text of a built template is the markup of its steps in order, so text and
spans agree.
-/

namespace TextTemplate

inductive BuildStep where
  | text (content : String)
  | directive (name : String) (attributes : List (String × String))
  | inclusion (file : String)
  | code (kind : CodeKind) (body : String)
  deriving DecidableEq, Repr, Inhabited

namespace BuildStep

def opening : CodeKind → String
  | .statement => "<#"
  | .expression => "<#="
  | .feature => "<#+"

def attributeMarkup (given : String × String) : String :=
  " " ++ given.1 ++ "=\"" ++ given.2 ++ "\""

def markup : BuildStep → String
  | .text content => content
  | .directive name attributes =>
    "<#@ " ++ name ++ String.join (attributes.map attributeMarkup) ++ " #>"
  | .inclusion file => "<#@ include file=\"" ++ file ++ "\" #>"
  | .code kind body => opening kind ++ body ++ "#>"

def spanOf (start : Nat) (text : String) : Span :=
  ⟨start, start + text.utf8ByteSize⟩

/-- The attributes of a directive whose first attribute is written at `start`. -/
def attributesFrom : Nat → List (String × String) → List Attribute
  | _, [] => []
  | start, given :: rest =>
    let valueStart := start + (" " ++ given.1 ++ "=\"").utf8ByteSize
    ⟨given.1, given.2, spanOf valueStart given.2⟩ ::
      attributesFrom (start + (attributeMarkup given).utf8ByteSize) rest

def node (start : Nat) (step : BuildStep) : Node :=
  let span := spanOf start step.markup
  match step with
  | .text content => .text ⟨content, span⟩
  | .directive name attributes =>
    let nameSpan := spanOf (start + "<#@ ".utf8ByteSize) name
    .directive ⟨name, nameSpan, attributesFrom nameSpan.stop attributes, span⟩
  | .inclusion file =>
    .inclusion ⟨file, spanOf (start + "<#@ include file=\"".utf8ByteSize) file, span⟩
  | .code kind body =>
    .code ⟨kind, body, spanOf (start + (opening kind).utf8ByteSize) body, span⟩

/-- The nodes of steps written one after the other from `start`. -/
def nodesFrom : Nat → List BuildStep → List Node
  | _, [] => []
  | start, step :: rest => step.node start :: nodesFrom (start + step.markup.utf8ByteSize) rest

end BuildStep

def Template.build (source : SourceId) (steps : List BuildStep) : Template where
  source := source
  text := String.join (steps.map BuildStep.markup)
  nodes := BuildStep.nodesFrom 0 steps

end TextTemplate
