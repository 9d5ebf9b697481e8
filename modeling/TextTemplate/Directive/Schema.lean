import TextTemplate.Text.Letters

/-!
The directives the generator knows, with the attributes each recognizes. Names are compared
without regard to the case of ASCII letters.
-/

namespace TextTemplate

inductive DirectiveKind where
  | template
  | parameter
  | output
  | assembly
  | namespaceImport
  | inclusion
  deriving DecidableEq, Repr, Inhabited

/-- A directive without a required attribute, or with a blank one, is malformed. -/
structure AttributeRule where
  name : String
  required : Bool
  deriving DecidableEq, Repr, Inhabited

structure DirectiveRule where
  kind : DirectiveKind
  name : String
  attributes : List AttributeRule
  deriving DecidableEq, Repr, Inhabited

namespace AttributeRule

def optional (name : String) : AttributeRule := ⟨name, false⟩

def mandatory (name : String) : AttributeRule := ⟨name, true⟩

end AttributeRule

namespace DirectiveRule

open AttributeRule

def all : List DirectiveRule :=
  [⟨.template, "template",
      [optional "language", optional "hostspecific", optional "inherits", optional "culture",
       optional "debug", optional "visibility", optional "linePragmas",
       optional "compilerOptions"]⟩,
   ⟨.parameter, "parameter", [mandatory "type", mandatory "name"]⟩,
   ⟨.output, "output", [optional "extension", optional "encoding"]⟩,
   ⟨.assembly, "assembly", [mandatory "name"]⟩,
   ⟨.namespaceImport, "import", [mandatory "namespace"]⟩,
   ⟨.inclusion, "include", [mandatory "file", optional "once"]⟩]

def find? (name : String) : Option DirectiveRule :=
  all.find? fun rule => Text.eqIgnoringCase rule.name name

def attribute? (rule : DirectiveRule) (name : String) : Option AttributeRule :=
  rule.attributes.find? fun known => Text.eqIgnoringCase known.name name

/-- The attributes a directive must have, in the order they are checked. -/
def required (rule : DirectiveRule) : List AttributeRule :=
  rule.attributes.filter AttributeRule.required

end DirectiveRule

end TextTemplate
