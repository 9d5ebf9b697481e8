import TextTemplate.Program
import TextTemplate.SourcePath

/-!
Bundles: all templates a generation may reach, with the macro values of include paths. A source
names the first template that has it.
-/

namespace TextTemplate

structure Bundle where
  root : SourceId
  templates : List Template
  macros : Macros := .empty
  deriving DecidableEq, Inhabited

inductive GenerationError where
  | unreadable
  | malformed
  | missingRoot (source : SourceId)
  | aborted
  /-- No error that is returned: the program itself ends here. -/
  | overflow
  deriving DecidableEq, Repr, Inhabited

def GenerationError.message : GenerationError → String
  | .unreadable => "failed to read bundle"
  | .malformed => "failed to parse bundle"
  | .missingRoot source => "bundle has no template named `" ++ source.path ++ "`"
  | .aborted => "generation aborted by cancellation"
  | .overflow => "attempt to add with overflow"

def GenerationError.ofInterruption : Interruption → GenerationError
  | .aborted _ => .aborted
  | .overflow => .overflow

def neverCancelled : Nat → Bool := fun _ => false

def compile (options : Options) (includes : Includes) (cancelled : Nat → Bool) (root : Template) :
    Except Interruption Program :=
  (Session.collect ⟨includes, options.macros, cancelled⟩ root).map fun collected =>
    Program.assemble collected options

namespace Bundle

def find? (bundle : Bundle) (source : SourceId) : Option Template :=
  bundle.templates.find? fun template => template.source = source

/-- The text of a source; empty when the bundle does not have it. -/
def textOf (bundle : Bundle) (source : SourceId) : String :=
  ((bundle.find? source).map Template.text).getD ""

def rootTemplate (bundle : Bundle) : Except GenerationError Template :=
  match bundle.find? bundle.root with
  | some template => .ok template
  | none => .error (.missingRoot bundle.root)

/-- The source an include refers to: its file without blanks around it and with macros
expanded, seen from the template that contains it. Nothing for an empty file. -/
def target? (bundle : Bundle) (origin : SourceId) (inclusion : Inclusion) : Option SourceId :=
  let file := bundle.macros.expand (String.ofList (Text.trim inclusion.file.toList))
  if file.isEmpty then none else some ⟨SourcePath.resolve origin.path file⟩

def resolve? (bundle : Bundle) (origin : SourceId) (inclusion : Inclusion) : Option Template :=
  (bundle.target? origin inclusion).bind bundle.find?

theorem resolve?_mem {bundle : Bundle} {origin : SourceId} {inclusion : Inclusion}
    {target : Template} (found : bundle.resolve? origin inclusion = some target) :
    target ∈ bundle.templates := by
  obtain ⟨source, _, located⟩ := Option.bind_eq_some_iff.mp found
  exact List.mem_of_find?_eq_some located

def includes (bundle : Bundle) : Includes where
  templates := bundle.templates
  resolve? := bundle.resolve?
  resolve?_mem := resolve?_mem

/-- The program of the bundle's root. The macros of the bundle are added to those of the
options, which win. -/
def generate (bundle : Bundle) (options : Options) : Except GenerationError Program :=
  match bundle.rootTemplate with
  | .error problem => .error problem
  | .ok root =>
    let known := { options with macros := options.macros.withDefaults bundle.macros }
    (compile known bundle.includes neverCancelled root).mapError .ofInterruption

end Bundle

end TextTemplate
