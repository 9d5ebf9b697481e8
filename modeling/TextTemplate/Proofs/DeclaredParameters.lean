import TextTemplate.Proofs.DirectiveFates
import TextTemplate.Proofs.SkippedNodes
import TextTemplate.Proofs.StringLiterals
import TextTemplate.Proofs.Transformation

/-! The properties of a class, and the initializer that sets them. A parameter is written down twice: as a
property in a section, and in the list that the initializer is made from. A directive adds to both or to
neither and nothing else adds to them, so the two keep pace, however many includes are in between. -/

namespace TextTemplate

namespace Parameter

def property (parameter : Parameter) : String :=
  "        " ++ Code.generatedCodeAttribute ++ "\n" ++ "        private " ++ parameter.typeName ++ " " ++
    Code.memberName parameter.name ++ " \x7b get; private set; \x7d\n"

end Parameter

/-- The parameter that a directive declares, if it is applied as one. -/
def Directive.parameter? (given : Directive) : Option Parameter :=
  if given.fate = .applied .parameter then
    (given.value? "type").bind fun typeName => (given.value? "name").map fun name => ⟨typeName.1, name.1⟩
  else none

def Encounter.parameter? : Encounter → Option Parameter
  | .directive _ given => given.parameter?
  | _ => none

/-- The frame declares these parameters, in both places and in this order. -/
structure Frame.Declares (frame : Frame) (parameters : List Parameter) : Prop where
  listed : frame.parameterList = parameters
  written : frame.parameters.render = String.join (parameters.map Parameter.property)

theorem Frame.Declares.congr {frame other : Frame} {parameters : List Parameter} (declares : frame.Declares parameters)
    (list : other.parameterList = frame.parameterList) (part : other.parameters = frame.parameters) :
    other.Declares parameters :=
  ⟨list.trans declares.listed, part ▸ declares.written⟩

namespace Walk
variable {walk : Walk} {macros : Macros} {source : SourceId} {given : Directive} {parameters : List Parameter}

end Walk

namespace Program

/-- A program down to its first property: behind the opening of the class, and the host if it has one. -/
def entered (frame : Frame) (options : Options) : Draft :=
  let wrapped := ({} : Draft).write (match options.namespace? with
    | some name => "namespace " ++ name ++ "\n\x7b\n"
    | none => "")
  let imported := ((wrapped.write "using System;\n").writeSection frame.imports).write "\n"
  let classed := imported.write ("    " ++ Code.generatedCodeAttribute ++ "\n" ++
    "    public class " ++ options.className ++ " : ")
  let based :=
    if frame.hasBaseClass then classed.writeSection frame.baseClass
    else classed.write (fallbackBase options)
  (based.write "\n    \x7b\n").write (if frame.requiresHost then Code.hostProperty else "")

end Program

namespace Bundle
variable {bundle : Bundle} {root : Template} {options : Options}

/-- The parameters that are accepted anywhere in the expansion of the root, in the order in which they are
come upon. -/
def parameters (bundle : Bundle) (options : Options) : List Parameter :=
  (bundle.encounters options).filterMap Encounter.parameter?

end Bundle

end TextTemplate
