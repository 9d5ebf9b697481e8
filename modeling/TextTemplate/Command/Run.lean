import TextTemplate.Command.Arguments
import TextTemplate.Command.FileTree
import TextTemplate.Exchange.Reading
import TextTemplate.Exchange.Writing
import TextTemplate.Problem.Report

/-!
Running the command on a tree of files. Each bundle is generated on its own: a failure is
reported and the next bundle follows. Programs are written beside their bundles, or printed as
JSON, one line each. An overflow is no failure: it ends the command where it stands.
-/

namespace TextTemplate.Command

inductive CommandError where
  | unreadableInput
  | input (cause : GenerationError)
  | bundle (path : String) (cause : GenerationError)
  | unwritable (path : String)
  | notBundle (path : String)
  | noBundles (path : String)
  | missing (path : String)
  | someFailed (failed total : Nat)
  deriving DecidableEq, Repr, Inhabited

def CommandError.message : CommandError → String
  | .unreadableInput => "failed to read stdin"
  | .input cause => cause.message
  | .bundle path cause => path ++ ": " ++ cause.message
  | .unwritable path => "failed to write " ++ path
  | .notBundle path => path ++ " is not a .bundle.json file"
  | .noBundles path => "no .bundle.json files found in " ++ path
  | .missing path => path ++ " does not exist"
  | .someFailed failed total => toString failed ++ " of " ++ toString total ++ " bundles failed"

/-- How a part of the work ends. -/
inductive Ending where
  | done
  | failed (error : CommandError)
  | crashed
  deriving DecidableEq, Repr, Inhabited

/-- How the command ends. -/
inductive Exit where
  | success
  | failure
  | crash
  deriving DecidableEq, Repr, Inhabited

def Exit.code : Exit → Nat
  | .success => 0
  | .failure => 1
  | .crash => 101

inductive Notice where
  | warning (report : String)
  | failure (error : CommandError)
  | written (path : String)
  | summary (count : Nat)
  deriving DecidableEq, Repr, Inhabited

/-- The text of a notice; `elapsed` is the time the command took. -/
def Notice.render (elapsed : String) : Notice → String
  | .warning report => report
  | .failure error => "error: " ++ error.message ++ "\n"
  | .written path => "  ✓ " ++ path ++ "\n"
  | .summary count =>
    "\nGenerated " ++ toString count ++ (if count = 1 then " program" else " programs") ++
      " in " ++ elapsed ++ "\n"

/-- The state of a run: the files as they are now, what was printed, and what was told. -/
structure Run where
  tree : FileTree
  output : String := ""
  notices : List Notice := []
  written : List (String × String) := []
  deriving Inhabited

namespace Run

def tell (run : Run) (notices : List Notice) : Run :=
  { run with notices := run.notices ++ notices }

def print (run : Run) (text : String) : Run :=
  { run with output := run.output ++ text }

end Run

def bundleSuffix : String := ".bundle.json"

def isBundlePath (path : String) : Bool :=
  (PathText.fileName path).endsWith bundleSuffix

def programName (bundleName : String) : String :=
  let stem := String.ofList (bundleName.toList.take (bundleName.length - bundleSuffix.length))
  (if stem.isEmpty then "Template" else stem) ++ ".cs"

def programPath (path : String) : String :=
  PathText.sibling path (programName (PathText.fileName path))

def generateText (options : Options) (text : String) :
    Except GenerationError (Bundle × Program) :=
  match Bundle.parse text with
  | .error cause => .error cause
  | .ok bundle => (bundle.generate options).map fun program => (bundle, program)

/-- The same for a file, which has to be text. -/
def generateContent (options : Options) (content : ByteArray) :
    Except GenerationError (Bundle × Program) :=
  match String.fromUTF8? content with
  | none => .error .unreadable
  | some text => generateText options text

/-- The problems of a program, each reported against the text of its source. -/
def warnings (bundle : Bundle) (program : Program) : List Notice :=
  program.problems.map fun problem =>
    .warning (problem.report (bundle.textOf problem.source) .plain)

/-- The program as a line of JSON, with injections if there are any to show. -/
def jsonLine (program : Program) (injections? : Option (List Injection)) : String :=
  let shown := match injections? with
    | some injections => [("injections", Json.list (injections.map Injection.toJson))]
    | none => []
  (Json.ofFields (program.fields ++ shown)).render ++ "\n"

def rootInjections (bundle : Bundle) (program : Program) : Option (List Injection) :=
  (bundle.find? bundle.root).map fun root => program.injections root.source root.text

/-- Generates the bundle of the input and prints its program. -/
def runInput (request : Request) (input : ByteArray) (run : Run) : Run × Ending :=
  match String.fromUTF8? input with
  | none => (run, .failed .unreadableInput)
  | some text =>
    match generateText request.options text with
    | .error .overflow => (run, .crashed)
    | .error cause => (run, .failed (.input cause))
    | .ok (bundle, program) =>
      let told := run.tell (warnings bundle program)
      (told.print
        (if request.json then
          jsonLine program (if request.injections then rootInjections bundle program else none)
        else
          program.code), .done)

/-- Delivers one program: as JSON, or as a file. A run goes on after a failure. -/
def deliver (request : Request) (path : String) (program : Program) (run : Run) : Run × Ending :=
  if request.json then
    (run.print (jsonLine program none), .done)
  else
    let target := programPath path
    match run.tree.write? target program.code.toUTF8 with
    | none => (run, .failed (.unwritable target))
    | some tree =>
      ({ run with tree := tree, written := run.written ++ [(target, program.code)] }.tell
        [.written target], .done)

def runFile (request : Request) (path : String) (content : ByteArray) (run : Run) : Run × Ending :=
  match generateContent request.options content with
  | .error .overflow => (run, .crashed)
  | .error cause => (run, .failed (.bundle path cause))
  | .ok (bundle, program) =>
    deliver request path program (run.tell (warnings bundle program))

/-- Generates a bundle that was found, from what its file holds when its turn comes. -/
def runFound (request : Request) (path : String) (run : Run) : Run × Ending :=
  match run.tree.find? path with
  | some (.file content) => runFile request path content run
  | _ => (run, .failed (.bundle path .unreadable))

/-- Generates bundle files one after the other and counts those that fail, unless one crashes. -/
def runFiles (request : Request) : List String → Run → Run × Except Overflow Nat
  | [], run => (run, .ok 0)
  | path :: rest, run =>
    match runFound request path run with
    | (next, .done) => runFiles request rest next
    | (next, .failed error) =>
      let later := runFiles request rest (next.tell [.failure error])
      (later.1, later.2.map (· + 1))
    | (next, .crashed) => (next, .error ⟨⟩)

/-- The paths of all bundle files below a directory. -/
def bundlePaths (path : String) (directory : FileTree) : List String :=
  ((directory.files path).map Prod.fst).filter isBundlePath

def runDirectory (request : Request) (path : String) (directory : FileTree) (run : Run) : Run × Ending :=
  let paths := bundlePaths path directory
  if paths.isEmpty then
    (run, .failed (.noBundles path))
  else
    match runFiles request paths run with
    | (stopped, .error _) => (stopped, .crashed)
    | (finished, .ok failed) =>
      (finished.tell [.summary (paths.length - failed)],
        if failed = 0 then .done else .failed (.someFailed failed paths.length))

/-- Generates what a path means: a bundle file, or all bundles of a directory. -/
def runPath (request : Request) (path : String) (run : Run) : Run × Ending :=
  match run.tree.find? path with
  | none => (run, .failed (.missing path))
  | some (.directory entries) => runDirectory request path (.directory entries) run
  | some (.file content) =>
    if isBundlePath path then
      match runFile request path content run with
      | (finished, .done) => (finished.tell [.summary 1], .done)
      | unfinished => unfinished
    else
      (run, .failed (.notBundle path))

/-- The end of a run: its state and how the command ends. -/
def conclude : Run × Ending → Run × Exit
  | (run, .done) => (run, .success)
  | (run, .failed error) => (run.tell [.failure error], .failure)
  | (run, .crashed) => (run, .crash)

def run (request : Request) (tree : FileTree) (input : ByteArray) : Run × Exit :=
  let start : Run := { tree }
  if request.fromInput then
    conclude (runInput request input start)
  else
    match request.path? with
    | some path => conclude (runPath request path start)
    | none => (start, .failure)

end TextTemplate.Command
