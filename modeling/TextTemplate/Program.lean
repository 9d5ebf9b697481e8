import TextTemplate.Collect
import TextTemplate.Program.Draft
import TextTemplate.Program.Options
import TextTemplate.Projection.Injection

/-!
Generated programs. Collected sections are laid out in a fixed order between fixed text that
depends on the options; only the sections are projected.
-/

namespace TextTemplate

structure Program where
  code : String
  table : ProjectionTable
  problems : List Problem
  references : List AssemblyReference
  outputExtension? : Option String
  deriving DecidableEq, Repr, Inhabited

namespace Program

def assignment (parameter : Parameter) : String :=
  "                if (this.Session.TryGetValue(\"" ++ Code.escape parameter.name ++
    "\", out value)) this." ++ Code.memberName parameter.name ++ " = (" ++
    parameter.typeName ++ ")value;\n"

def initializer (parameters : List Parameter) : String :=
  Code.initializerOpening ++ String.join (parameters.map assignment) ++
    Code.initializerClosing

def needsInitializer (frame : Frame) (variant : Variant) : Bool :=
  variant.emitsInitializer && !frame.parameterList.isEmpty

/-- Whether the base class is written behind the program. -/
def needsBaseClass (frame : Frame) (variant : Variant) : Bool :=
  !frame.hasBaseClass && variant.synthesizesBaseClass

/-- The name of the base class when the template names none. -/
def fallbackBase (options : Options) : String :=
  if options.variant.synthesizesBaseClass then options.className ++ "Base"
  else Code.runtimeBaseClass

/-- The transform method overrides that of any base class but one written with the program,
which has none. -/
def transformModifier (frame : Frame) (variant : Variant) : String :=
  if frame.hasBaseClass || variant = .codeBehind then "override" else "virtual"

/-- Writes the class down to the opening of the transform method. -/
def writeHead (frame : Frame) (options : Options) (draft : Draft) : Draft :=
  let opened :=
    draft.write ("    " ++ Code.generatedCodeAttribute ++ "\n" ++
      "    public class " ++ options.className ++ " : ")
  let based :=
    if frame.hasBaseClass then opened.writeSection frame.baseClass
    else opened.write (fallbackBase options)
  let hosted :=
    (based.write "\n    \x7b\n").write (if frame.requiresHost then Code.hostProperty else "")
  let declared := hosted.writeSection frame.parameters
  let initialized :=
    declared.write
      (if needsInitializer frame options.variant then initializer frame.parameterList else "")
  initialized.write ("        public " ++ transformModifier frame options.variant ++
    " string TransformText()\n        \x7b\n")

/-- Writes the body of the transform method and the rest of the class. -/
def writeBody (frame : Frame) (draft : Draft) : Draft :=
  let transformed := (draft.writeSection frame.transformation).endLineAfter frame.transformation
  let closed := transformed.write (Code.returnBuffer ++ "        \x7d\n")
  ((closed.writeSection frame.feature).endLineAfter frame.feature).write "    \x7d\n"

def baseClass (options : Options) : String :=
  "\n    public class " ++ options.className ++ "Base\n" ++ Code.baseClassBody

def layout (frame : Frame) (options : Options) : Draft :=
  let wrapped := ({} : Draft).write (match options.namespace? with
    | some name => "namespace " ++ name ++ "\n\x7b\n"
    | none => "")
  let imported := ((wrapped.write "using System;\n").writeSection frame.imports).write "\n"
  let classed := writeBody frame (writeHead frame options imported)
  let based :=
    classed.write (if needsBaseClass frame options.variant then baseClass options else "")
  based.write (if options.namespace?.isSome then "\x7d\n" else "")

def assemble (collected : Collected) (options : Options) : Program :=
  let draft := layout collected.frame options
  { code := draft.code
    table := draft.table
    problems := collected.problems
    references := collected.references
    outputExtension? := collected.outputExtension? }

def originPosition? (program : Program) (offset : Nat) : Except Overflow (Option (SourceId × Nat)) :=
  match program.table.findGenerated? offset with
  | some entry =>
    (entry.toOrigin? program.code offset).map fun origin? =>
      origin?.map fun origin => (entry.origin.source, origin)
  | none => .ok none

/-- Where an offset of a source was generated first. -/
def generatedPosition? (program : Program) (source : SourceId) (offset : Nat) :
    Except Overflow (Option Nat) :=
  match program.table.findOrigin? source offset with
  | some entry => entry.toGenerated? program.code offset
  | none => .ok none

def hasProblems (program : Program) : Bool :=
  !program.problems.isEmpty

def isInterrupted (program : Program) : Bool :=
  program.problems.any fun problem => problem.kind.interrupts

def problemsOf (program : Program) (kind : ProblemKind) : List Problem :=
  program.problems.filter fun problem => problem.kind = kind

def injections (program : Program) (source : SourceId) (text : String) : List Injection :=
  program.table.injections program.code source text

end Program

end TextTemplate
