import TextTemplate.Command.Elapsed
import TextTemplate.Command.Run

/-!
The `tea` command. What a request looks at is read into a tree, the request is carried out on
that tree, and what it wrote there is written to disk.
-/

namespace TextTemplate.Command

/-- A file as the command sees it: only bundles are read, and one that cannot be read holds no
text. -/
def loadFile (path : String) : IO FileTree := do
  if isBundlePath path then
    try
      return .file (← IO.FS.readBinFile path)
    catch _ =>
      return .file ⟨#[0xff]⟩
  else
    return .file .empty

/-- A directory and all below it. Links are left out, so the descent ends. -/
partial def loadDirectory (path : String) : IO FileTree := do
  let found ← try (← IO.FS.realPath path).readDir catch _ => pure #[]
  let mut entries := []
  for entry in found do
    let place := entry.path.toString
    match (← entry.path.symlinkMetadata).type with
    | .dir => entries := FileTree.setEntry entry.fileName (← loadDirectory place) entries
    | .file => entries := FileTree.setEntry entry.fileName (← loadFile place) entries
    | _ => pure ()
  return .directory entries

/-- What a path leads to, if there is a file or a directory. -/
def load? (path : String) : IO (Option FileTree) := do
  try
    match (← (← IO.FS.realPath path).metadata).type with
    | .dir => return some (← loadDirectory path)
    | .file => return some (← loadFile path)
    | _ => return none
  catch _ =>
    return none

/-- The tree for a path. Beside a bundle it holds what already stands in the place of its
program. -/
def loadTree (path : String) : IO FileTree := do
  let empty : FileTree := .directory []
  match ← load? path with
  | none => return empty
  | some found =>
    let tree := empty.place path found
    if found.isDirectory then
      return tree
    match ← load? (programPath path) with
    | some standing => return tree.place (programPath path) standing
    | none => return tree

/-- Writes files; the first that cannot be written is the last that is tried. -/
def store (files : List (String × String)) : IO (Option CommandError) := do
  for (path, text) in files do
    try
      IO.FS.writeFile path text
    catch _ =>
      return some (.unwritable path)
  return none

def generate (request : Request) : IO UInt32 := do
  let began ← IO.monoNanosNow
  let input ← if request.fromInput then (← IO.getStdin).readBinToEnd else pure .empty
  let tree ← match request.fromInput, request.path? with
    | false, some path => loadTree path
    | _, _ => pure (.directory [])
  let (finished, exit) := run request tree input
  let failure? ← store finished.written
  let elapsed := elapsedText (((← IO.monoNanosNow) - began) / 1000)
  IO.print finished.output
  for notice in finished.notices ++ (failure?.map Notice.failure).toList do
    IO.eprint (notice.render elapsed)
  if exit = .crash then
    IO.eprintln GenerationError.overflow.message
  return if failure?.isNone then exit.code.toUInt32 else max exit.code.toUInt32 1

end TextTemplate.Command

/-- Exits with 0 after success, with 1 after a failure, with 101 after an overflow, and with 2 when
the arguments are not understood. -/
def main (arguments : List String) : IO UInt32 := do
  match TextTemplate.Command.parse? arguments with
  | some (.generate request) => TextTemplate.Command.generate request
  | some .help =>
    IO.print TextTemplate.Command.usage
    return 0
  | none =>
    IO.eprint TextTemplate.Command.usage
    return 2
