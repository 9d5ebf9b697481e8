import TextTemplate.Bundle
import TextTemplate.Json.Writer

/-!
Bundles, options and programs as they are written in JSON, each a record of its fields in a
fixed order.
-/

namespace TextTemplate

namespace Exchange

def optionalJson : Option String → Json
  | some text => .ofString text
  | none => .null

end Exchange

open Exchange

def Span.toJson (span : Span) : Json :=
  .ofFields [("start", .ofNat span.start), ("end", .ofNat span.stop)]

def SourceId.toJson (source : SourceId) : Json :=
  .ofString source.path

def Attribute.toJson (given : Attribute) : Json :=
  .ofFields [("name", .ofString given.name), ("value", .ofString given.value),
    ("value_span", given.valueSpan.toJson)]

def CodeKind.name : CodeKind → String
  | .statement => "statement"
  | .expression => "expression"
  | .feature => "feature"

def Node.toJson : Node → Json
  | .directive given =>
    .ofFields [("type", .ofString "directive"), ("name", .ofString given.name),
      ("name_span", given.nameSpan.toJson),
      ("attributes", .list (given.attributes.map Attribute.toJson)), ("span", given.span.toJson)]
  | .text literal =>
    .ofFields [("type", .ofString "text"), ("content", .ofString literal.content),
      ("span", literal.span.toJson)]
  | .code fragment =>
    .ofFields [("type", .ofString "code"), ("kind", .ofString fragment.kind.name),
      ("code", .ofString fragment.code), ("code_span", fragment.codeSpan.toJson),
      ("span", fragment.span.toJson)]
  | .inclusion reference =>
    .ofFields [("type", .ofString "include"), ("file", .ofString reference.file),
      ("file_span", reference.fileSpan.toJson), ("span", reference.span.toJson)]

def Template.toJson (template : Template) : Json :=
  .ofFields [("source", template.source.toJson), ("text", .ofString template.text),
    ("nodes", .list (template.nodes.map Node.toJson))]

def Macros.toJson (macros : Macros) : Json :=
  .ofFields (macros.entries.map fun entry => (entry.1, .ofString entry.2))

def Bundle.toJson (bundle : Bundle) : Json :=
  .ofFields [("root", bundle.root.toJson),
    ("templates", .list (bundle.templates.map Template.toJson)), ("macros", bundle.macros.toJson)]

def Variant.name : Variant → String
  | .codeBehind => "code_behind"
  | .executable => "executable"
  | .interactive => "interactive"

def Options.toJson (options : Options) : Json :=
  .ofFields [("variant", .ofString options.variant.name),
    ("namespace", optionalJson options.givenNamespace?),
    ("class_name", optionalJson options.givenClassName?), ("macros", options.macros.toJson)]

def OriginKind.name : OriginKind → String
  | .code => "Code"
  | .text => "Text"

def Projection.toJson (projection : Projection) : Json :=
  .ofFields [("generated", projection.generated.toJson),
    ("source", projection.origin.source.toJson), ("original", projection.origin.span.toJson),
    ("kind", .ofString projection.origin.kind.name), ("generated_line", .ofNat projection.line)]

def ProblemKind.name : ProblemKind → String
  | .unresolvedInclude => "UnresolvedInclude"
  | .cyclicInclude => "CyclicInclude"
  | .malformedDirective => "MalformedDirective"

def Problem.toJson (problem : Problem) : Json :=
  .ofFields [("kind", .ofString problem.kind.name), ("source", problem.source.toJson),
    ("span", problem.span.toJson), ("message", .ofString problem.message)]

def AssemblyReference.toJson (reference : AssemblyReference) : Json :=
  .ofFields [("name", .ofString reference.name), ("source", reference.source.toJson),
    ("span", reference.span.toJson)]

def Injection.toJson (injection : Injection) : Json :=
  .ofFields [("type", .ofString "csharp"), ("start", .ofNat injection.start),
    ("end", .ofNat injection.stop), ("prefix", .ofString injection.before),
    ("suffix", .ofString injection.after)]

/-- The fields of a program; the extension only when one was given. -/
def Program.fields (program : Program) : List (String × Json) :=
  [("code", .ofString program.code),
   ("projections", .list (program.table.entries.toList.map Projection.toJson)),
   ("problems", .list (program.problems.map Problem.toJson)),
   ("references", .list (program.references.map AssemblyReference.toJson))] ++
  (match program.outputExtension? with
   | some extension => [("output_extension", .ofString extension)]
   | none => [])

end TextTemplate
