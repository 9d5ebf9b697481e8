import TextTemplate.Code.Keyword
import TextTemplate.Code.FixedText
import TextTemplate.Collect.Frame
import TextTemplate.Collect.OpenSources
import TextTemplate.Directive.Schema
import TextTemplate.Macros
import TextTemplate.Problem

/-!
The state of a walk through a template and what each node does to it. Directives and code act
on the innermost frame; a directive that cannot be used leaves a problem and nothing else.
-/

namespace TextTemplate

/-- An `assembly` directive, for whoever compiles the program. -/
structure AssemblyReference where
  name : String
  source : SourceId
  span : Span
  deriving DecidableEq, Repr, Inhabited

/-- A walk under way: the frame of the innermost open source, the frames around it, and what
is collected for the whole program. -/
structure Walk where
  sources : OpenSources
  current : Frame
  parents : List Frame := []
  depth : Nat := 0
  rootFeatureStarted : Bool := false
  seenTemplateDirective : Bool := false
  problems : List Problem := []
  references : List AssemblyReference := []
  outputExtension? : Option String := none
  checks : Nat := 0
  deriving DecidableEq, Repr, Inhabited

namespace Walk

def start (root : SourceId) : Walk where
  sources := ⟨[root]⟩
  current := Frame.new root

def mapCurrent (walk : Walk) (change : Frame → Frame) : Walk :=
  { walk with current := change walk.current }

def check (walk : Walk) : Walk :=
  { walk with checks := walk.checks + 1 }

def flush (walk : Walk) (boundary : Boundary) : Walk :=
  walk.mapCurrent fun frame => frame.flush boundary

def complain (walk : Walk) (complaint : Complaint) (source : SourceId) (span : Span) : Walk :=
  { walk with problems := walk.problems ++ [complaint.problem source span] }

/-- Opens an include, whose source is the innermost one of `opened`, with a frame of its own. -/
def descend (walk : Walk) (opened : OpenSources) (target : SourceId) : Walk :=
  { walk with
    sources := opened
    current := Frame.new target
    parents := walk.current :: walk.parents
    depth := walk.depth + 1 }

/-- Closes the innermost include; the frame around it absorbs what it collected. -/
def ascend (walk : Walk) : Walk :=
  { walk with
    sources := walk.sources.exit
    current := match walk.parents with
      | parent :: _ => parent.absorb walk.current
      | [] => walk.current
    parents := walk.parents.tail
    depth := walk.depth - 1 }

def importNamespace (walk : Walk) (source : SourceId) (given : Directive) : Walk :=
  match given.value? "namespace" with
  | some (name, span) =>
    walk.mapCurrent fun frame =>
      frame.appendAll .imports [.plain "using ", .mapped name ⟨source, span, .code⟩, .plain ";\n"]
  | none => walk

/-- Only the first `template` directive of a walk counts, at whatever depth. -/
def applyTemplate (walk : Walk) (source : SourceId) (given : Directive) : Walk :=
  if walk.seenTemplateDirective then
    walk
  else
    { walk with seenTemplateDirective := true }.mapCurrent fun frame =>
      let hosted := match given.value? "hostspecific" with
        | some (host, _) =>
          if Text.eqIgnoringCase host "true" then frame.markHostRequired else frame
        | none => frame
      match given.value? "inherits" with
      | some (name, span) => hosted.captureBaseClass name source span
      | none => hosted

/-- The pieces of the property that declares a parameter. -/
def propertyPieces (source : SourceId) (typeName name : String × Span) : List Piece :=
  [.plain ("        " ++ Code.generatedCodeAttribute ++ "\n"),
   .plain "        private ",
   .mapped typeName.1 ⟨source, typeName.2, .code⟩,
   .plain " "] ++
  (if Code.isKeyword name.1 then [.plain "@"] else []) ++
  [.mapped name.1 ⟨source, name.2, .code⟩,
   .plain " \x7b get; private set; \x7d\n"]

def addParameter (walk : Walk) (source : SourceId) (given : Directive) : Walk :=
  match given.value? "type", given.value? "name" with
  | some typeName, some name =>
    walk.mapCurrent fun frame =>
      let declared := frame.appendAll .parameters (propertyPieces source typeName name)
      { declared with parameterList := declared.parameterList ++ [⟨typeName.1, name.1⟩] }
  | _, _ => walk

/-- The first extension given by an `output` directive counts. -/
def applyOutput (walk : Walk) (given : Directive) : Walk :=
  match walk.outputExtension? with
  | some _ => walk
  | none => { walk with outputExtension? := (given.value? "extension").map Prod.fst }

/-- An `assembly` directive becomes a reference, macros in its name expanded. -/
def addReference (walk : Walk) (macros : Macros) (source : SourceId) (given : Directive) : Walk :=
  match given.value? "name" with
  | some (name, span) =>
    { walk with references := walk.references ++ [⟨macros.expand name, source, span⟩] }
  | none => walk

def applyDirective (walk : Walk) (macros : Macros) (source : SourceId) (given : Directive) :
    DirectiveKind → Walk
  | .namespaceImport => walk.importNamespace source given
  | .template => walk.applyTemplate source given
  | .parameter => walk.addParameter source given
  | .output => walk.applyOutput given
  | .assembly => walk.addReference macros source given
  | .inclusion => walk

/-- The attributes whose values are trimmed when a directive is applied. -/
def consulted (walk : Walk) : DirectiveKind → List String
  | .namespaceImport => ["namespace"]
  | .template => if walk.seenTemplateDirective then [] else ["hostspecific", "inherits"]
  | .parameter => ["type", "name"]
  | .output => if walk.outputExtension?.isSome then [] else ["extension"]
  | .assembly => ["name"]
  | .inclusion => []

/-- The first required attribute of a directive that is absent or blank. -/
def missingAttribute? (rule : DirectiveRule) (given : Directive) : Option AttributeRule :=
  rule.required.find? fun expected => (given.value? expected.name).isNone

/-- The required attributes whose values are trimmed until one of them is found missing. -/
def checkedAttributes (rule : DirectiveRule) (given : Directive) : List String :=
  (rule.required.takeWhile fun expected => (given.value? expected.name).isSome).map AttributeRule.name

/-- The attributes whose values are trimmed when a directive is visited. -/
def trimmedAttributes (walk : Walk) (given : Directive) : List String :=
  match DirectiveRule.find? given.name with
  | none => []
  | some rule =>
    if rule.kind = .inclusion then
      []
    else
      checkedAttributes rule given ++
        if (missingAttribute? rule given).isSome then [] else walk.consulted rule.kind

/-- Visits a directive. Unknown ones are passed over. -/
def visitDirective (walk : Walk) (macros : Macros) (source : SourceId) (given : Directive) : Walk :=
  match DirectiveRule.find? given.name with
  | none => walk
  | some rule =>
    if rule.kind = .inclusion then
      walk.complain .bareInclude source given.nameSpan
    else
      match missingAttribute? rule given with
      | some missing =>
        walk.complain (.missingAttribute rule.name missing.name) source given.nameSpan
      | none => walk.applyDirective macros source given rule.kind

/-- The section an expression goes to: once feature code has started in the root, the root's
expressions belong to the class body. -/
def expressionPart (walk : Walk) : SectionKind :=
  if walk.rootFeatureStarted && walk.depth == 0 then .feature else .transformation

/-- Visits embedded code; an empty fragment leaves nothing behind. -/
def visitCode (walk : Walk) (source : SourceId) (fragment : CodeFragment) : Walk :=
  if fragment.code.isEmpty then
    walk
  else
    let code := Piece.mapped fragment.code ⟨source, fragment.codeSpan, .code⟩
    match fragment.kind with
    | .expression =>
      walk.mapCurrent fun frame =>
        frame.appendAll walk.expressionPart
          [.plain Code.toStringOpening, code, .plain Code.toStringClosing]
    | .feature =>
      { walk with rootFeatureStarted := walk.rootFeatureStarted || walk.depth == 0 }.mapCurrent
        fun frame => frame.appendAll .feature [code, .plain "\n"]
    | .statement =>
      walk.mapCurrent fun frame => frame.appendAll .transformation [code, .plain "\n"]

/-- Whether a node can be visited: no sum of offsets that its visit takes overflows. -/
def admits (walk : Walk) : Node → Bool
  | .text _ => true
  | .directive given => walk.current.flushes && given.fits (walk.trimmedAttributes given)
  | .code _ => walk.current.flushes
  | .inclusion _ => walk.current.flushes

@[simp] theorem mapCurrent_sources (walk : Walk) (change : Frame → Frame) :
    (walk.mapCurrent change).sources = walk.sources := rfl

@[simp] theorem check_sources (walk : Walk) : walk.check.sources = walk.sources := rfl

@[simp] theorem flush_sources (walk : Walk) (boundary : Boundary) :
    (walk.flush boundary).sources = walk.sources := rfl

@[simp] theorem complain_sources (walk : Walk) (complaint : Complaint) (source : SourceId)
    (span : Span) : (walk.complain complaint source span).sources = walk.sources := rfl

@[simp] theorem descend_sources (walk : Walk) (opened : OpenSources) (target : SourceId) :
    (walk.descend opened target).sources = opened := rfl

@[simp] theorem ascend_sources (walk : Walk) : walk.ascend.sources = walk.sources.exit := rfl

@[simp] theorem visitCode_sources (walk : Walk) (source : SourceId) (fragment : CodeFragment) :
    (walk.visitCode source fragment).sources = walk.sources := by
  unfold visitCode
  split
  · rfl
  · cases fragment.kind <;> rfl

theorem applyDirective_sources (walk : Walk) (macros : Macros) (source : SourceId)
    (given : Directive) (kind : DirectiveKind) :
    (walk.applyDirective macros source given kind).sources = walk.sources := by
  cases kind
  case template =>
    simp only [applyDirective, applyTemplate]
    split <;> rfl
  case parameter =>
    simp only [applyDirective, addParameter]
    split <;> rfl
  case output =>
    simp only [applyDirective, applyOutput]
    split <;> rfl
  case assembly =>
    simp only [applyDirective, addReference]
    split <;> rfl
  case namespaceImport =>
    simp only [applyDirective, importNamespace]
    split <;> rfl
  case inclusion => rfl

@[simp] theorem visitDirective_sources (walk : Walk) (macros : Macros) (source : SourceId)
    (given : Directive) : (walk.visitDirective macros source given).sources = walk.sources := by
  unfold visitDirective
  split
  · rfl
  · split
    · rfl
    · split
      · rfl
      · exact applyDirective_sources ..

end Walk

end TextTemplate
