import TextTemplate.Program.Options

/-!
The arguments of the command. Options may stand anywhere after the subcommand, each at most
once, their values behind an equals sign or in the next argument; behind `--` there are only
paths.
-/

namespace TextTemplate.Command

def usage : String :=
  String.join <| [
    "Usage: tea generate [OPTIONS] <PATH>",
    "       tea generate [OPTIONS] --stdin",
    "",
    "Generates a C# program from each parsed template bundle (*.bundle.json).",
    "PATH is a bundle, or a directory whose bundles are generated one by one.",
    "",
    "  --stdin              read one bundle from standard input and print its program",
    "  --json               print programs as JSON, with projections and problems",
    "  --injection          add the injections of the root template to the JSON of --stdin",
    "  --variant <VARIANT>  code-behind (default), executable or interactive",
    "  --namespace <NAME>   wrap the class in a namespace",
    "  --class-name <NAME>  name the class",
    "  -h, --help           print this text"].map (· ++ "\n")

structure Request where
  path? : Option String
  fromInput : Bool
  json : Bool
  injections : Bool
  options : Options

inductive Invocation where
  | generate (request : Request)
  | help

inductive ValueOption where
  | variant
  | nameSpace
  | className
  deriving DecidableEq

inductive Flag where
  | fromInput
  | json
  | injections
  deriving DecidableEq

structure Given where
  path? : Option String := none
  flags : List Flag := []
  givenVariant? : Option Variant := none
  givenNamespace? : Option String := none
  givenClassName? : Option String := none
  /-- The option whose value is the next argument. -/
  pending? : Option ValueOption := none
  onlyPaths : Bool := false
  help : Bool := false

def Flag.ofName? : String → Option Flag
  | "stdin" => some .fromInput
  | "json" => some .json
  | "injection" => some .injections
  | _ => none

def ValueOption.ofName? : String → Option ValueOption
  | "variant" => some .variant
  | "namespace" => some .nameSpace
  | "class-name" => some .className
  | _ => none

def variantOfArgument? : String → Option Variant
  | "code-behind" => some .codeBehind
  | "executable" => some .executable
  | "interactive" => some .interactive
  | _ => none

namespace Given

/-- Gives an option its value; twice is an error. -/
def setValue (given : Given) (option : ValueOption) (value : String) : Option Given :=
  let settled := { given with pending? := none }
  match option with
  | .variant =>
    if given.givenVariant?.isSome then none
    else (variantOfArgument? value).map fun variant =>
      { settled with givenVariant? := some variant }
  | .nameSpace =>
    if given.givenNamespace?.isSome then none
    else some { settled with givenNamespace? := some value }
  | .className =>
    if given.givenClassName?.isSome then none
    else some { settled with givenClassName? := some value }

/-- Takes a path; there is only one, and it is not empty. -/
def setPath (given : Given) (path : String) : Option Given :=
  if given.path?.isSome ∨ path = "" then none else some { given with path? := some path }

/-- Takes an option by its name and the value behind an equals sign, if any. -/
def takeOption (given : Given) (name : String) (attached? : Option String) : Option Given :=
  match Flag.ofName? name, ValueOption.ofName? name, attached? with
  | some flag, _, none =>
    if flag ∈ given.flags then none else some { given with flags := flag :: given.flags }
  | none, some option, some value => given.setValue option value
  | none, some option, none => some { given with pending? := some option }
  | none, none, none => if name = "help" then some { given with help := true } else none
  | _, _, some _ => none

/-- An argument that starts with two hyphens, split at its first equals sign. -/
def splitOption (argument : List Char) : String × Option String :=
  let name := argument.takeWhile (· ≠ '=')
  (String.ofList name,
    match argument.drop name.length with
    | _ :: value => some (String.ofList value)
    | [] => none)

/-- Takes an argument before any `--`. While an option waits for its value, only something that
does not look like an option will do. -/
def takeArgument (given : Given) (argument : String) : Option Given :=
  match argument.toList with
  | '-' :: '-' :: [] =>
    if given.pending?.isSome then none else some { given with onlyPaths := true }
  | '-' :: '-' :: name =>
    let parts := splitOption name
    if given.pending?.isSome then none else given.takeOption parts.1 parts.2
  | '-' :: letter :: _ =>
    if given.pending?.isNone ∧ letter = 'h' then some { given with help := true } else none
  | _ =>
    match given.pending? with
    | some option => given.setValue option argument
    | none => given.setPath argument

/-- Takes the next argument. Once help is asked for, nothing else matters. -/
def take (given : Given) (argument : String) : Option Given :=
  if given.help then some given
  else if given.onlyPaths then given.setPath argument
  else given.takeArgument argument

def invocation? (given : Given) : Option Invocation :=
  if given.help then
    some .help
  else if given.pending?.isSome ∨ (given.path?.isNone ∧ .fromInput ∉ given.flags) then
    none
  else
    some (.generate
      { path? := given.path?
        fromInput := .fromInput ∈ given.flags
        json := .json ∈ given.flags
        injections := .injections ∈ given.flags
        options :=
          { variant := given.givenVariant?.getD .codeBehind
            givenNamespace? := given.givenNamespace?
            givenClassName? := given.givenClassName? } })

end Given

/-- What the arguments ask for; nothing when they are not understood. -/
def parse? : List String → Option Invocation
  | "generate" :: rest => (rest.foldlM Given.take {}).bind Given.invocation?
  | ["help"] => some .help
  | ["help", topic] => if topic = "generate" ∨ topic = "help" then some .help else none
  | "--help" :: _ => some .help
  | first :: _ => if first.startsWith "-h" then some .help else none
  | [] => none

end TextTemplate.Command
