import TextTemplate.Span
import TextTemplate.Text.Blank
import TextTemplate.Text.Letters

/-!
Parsed templates: a source, its full text, and its top-level nodes in order. Nodes repeat the
text they stand for and carry spans of the template's text; the two may disagree, because
templates also arrive from outside.
-/

namespace TextTemplate

structure SourceId where
  path : String
  deriving DecidableEq, Repr, Inhabited

/-- One `name="value"` of a directive, with the span of its value. -/
structure Attribute where
  name : String
  value : String
  valueSpan : Span
  deriving DecidableEq, Repr, Inhabited

/-- An instruction to the generator: `<#@ name attribute="value" #>`. -/
structure Directive where
  name : String
  nameSpan : Span
  attributes : List Attribute
  span : Span
  deriving DecidableEq, Repr, Inhabited

structure LiteralText where
  content : String
  span : Span
  deriving DecidableEq, Repr, Inhabited

/-- How embedded code is used: run in place, written out as a value, or added to the class. -/
inductive CodeKind where
  | statement
  | expression
  | feature
  deriving DecidableEq, Repr, Inhabited

/-- Embedded code, `<# … #>`, `<#= … #>` or `<#+ … #>`. -/
structure CodeFragment where
  kind : CodeKind
  code : String
  codeSpan : Span
  span : Span
  deriving DecidableEq, Repr, Inhabited

/-- A reference to another template, `<#@ include file="…" #>`, to be expanded in place. -/
structure Inclusion where
  file : String
  fileSpan : Span
  span : Span
  deriving DecidableEq, Repr, Inhabited

inductive Node where
  | directive (directive : Directive)
  | text (text : LiteralText)
  | code (fragment : CodeFragment)
  | inclusion (inclusion : Inclusion)
  deriving DecidableEq, Repr, Inhabited

structure Template where
  source : SourceId
  text : String
  nodes : List Node
  deriving DecidableEq, Repr, Inhabited

/-- The span of the whole node, delimiters included. -/
def Node.span : Node → Span
  | .directive given => given.span
  | .text literal => literal.span
  | .code fragment => fragment.span
  | .inclusion reference => reference.span

/-- The place to blame for an include: its file, or the whole node when the file is empty. -/
def Inclusion.blameSpan (inclusion : Inclusion) : Span :=
  if inclusion.fileSpan.isEmpty then inclusion.span else inclusion.fileSpan

def Template.slice? (template : Template) (span : Span) : Option String :=
  span.slice? template.text

/-- The value without the blanks around it and the span narrowed to match; nothing when the
value is blank. -/
def Attribute.trimmed? (given : Attribute) : Option (String × Span) :=
  let value := given.value.toList
  let leading := Text.width (value.takeWhile Text.isBlank)
  let kept := Text.trim value
  if kept.isEmpty then
    none
  else
    some (String.ofList kept, given.valueSpan.narrow leading (leading + Text.width kept))

/-- Whether the value is blank, or trimming it takes no sum that overflows. -/
def Attribute.fits (given : Attribute) : Bool :=
  given.trimmed?.all fun value => value.2.fits

def Directive.attribute? (directive : Directive) (name : String) : Option Attribute :=
  directive.attributes.find? fun given => Text.eqIgnoringCase given.name name

def Directive.value? (directive : Directive) (name : String) : Option (String × Span) :=
  (directive.attribute? name).bind Attribute.trimmed?

def Directive.fits (directive : Directive) (names : List String) : Bool :=
  names.all fun name => (directive.attribute? name).all Attribute.fits

end TextTemplate
