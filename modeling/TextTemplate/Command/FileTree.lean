import TextTemplate.Command.PathText

/-!
The files a command sees, as a tree. A path is followed part by part: an empty part or a single
dot stays in the directory, two dots lead to the one above, and a path that starts with a slash
starts in the entry named `/`. Entries of a directory are in the order of their names.
-/

namespace TextTemplate

inductive FileTree where
  | file (content : ByteArray)
  | directory (entries : List (String × FileTree))
  deriving Inhabited

namespace FileTree

def isDirectory : FileTree → Bool
  | .file _ => false
  | .directory _ => true

def entry? : FileTree → String → Option FileTree
  | .file _, _ => none
  | .directory entries, name => (entries.find? fun entry => entry.1 = name).map Prod.snd

def at? (tree : FileTree) (names : List String) : Option FileTree :=
  names.foldlM entry? tree

def isDirectoryAt (tree : FileTree) (names : List String) : Bool :=
  ((tree.at? names).map isDirectory).getD false

def startOf (path : String) : List String :=
  if path.startsWith "/" then ["/"] else []

/-- Follows one part of a path from the directory at `names`, innermost name first. -/
def follow (tree : FileTree) (names : List String) (part : String) : Option (List String) :=
  if tree.isDirectoryAt names.reverse then
    if part = "" ∨ part = "." then some names
    else if part = ".." then some names.tail
    else if (tree.at? (part :: names).reverse).isSome then some (part :: names)
    else none
  else
    none

/-- The names that lead to what a path means, if there is anything. -/
def locate? (tree : FileTree) (path : String) : Option (List String) :=
  ((PathText.parts path).foldlM tree.follow (startOf path)).map List.reverse

def find? (tree : FileTree) (path : String) : Option FileTree :=
  (tree.locate? path).bind tree.at?

/-- Entries with one set, kept in the order of their names. -/
def setEntry (name : String) (value : FileTree) :
    List (String × FileTree) → List (String × FileTree)
  | [] => [(name, value)]
  | entry :: rest =>
    if name < entry.1 then (name, value) :: entry :: rest
    else if name = entry.1 then (name, value) :: rest
    else entry :: setEntry name value rest

/-- The tree with `value` at the end of a chain of names; what is missing on the way becomes a
directory. -/
def set (tree : FileTree) (names : List String) (value : FileTree) : FileTree :=
  match names with
  | [] => value
  | name :: rest =>
    let entries := match tree with
      | .file _ => []
      | .directory entries => entries
    .directory (setEntry name (set ((tree.entry? name).getD (.directory [])) rest value) entries)

/-- Follows one part of a path and makes the directory it names when nothing is there. -/
def makeWay (place : FileTree × List String) (part : String) : FileTree × List String :=
  if part = "" ∨ part = "." then place
  else if part = ".." then (place.1, place.2.tail)
  else
    let names := part :: place.2
    (if (place.1.at? names.reverse).isSome then place.1
     else place.1.set names.reverse (.directory []),
     names)

/-- The tree with all directories of a path, and the names the path leads through. -/
def makeDirectories (tree : FileTree) (path : String) : FileTree × List String :=
  (PathText.parts path).foldl makeWay (tree, startOf path)

def place (tree : FileTree) (path : String) (value : FileTree) : FileTree :=
  let made := tree.makeDirectories path
  made.1.set made.2.reverse value

/-- The tree after a file is written; nothing when its directory does not exist or a directory
has its name. -/
def write? (tree : FileTree) (path : String) (content : ByteArray) : Option FileTree :=
  let directory := PathText.directory path
  (tree.locate? (if directory = "" then "." else directory)).bind fun names =>
    let target := names ++ [PathText.fileName path]
    if !tree.isDirectoryAt names || tree.isDirectoryAt target then none
    else some (tree.set target (.file content))

mutual

def files (path : String) : FileTree → List (String × ByteArray)
  | .file content => [(path, content)]
  | .directory entries => filesOf path entries

def filesOf (path : String) : List (String × FileTree) → List (String × ByteArray)
  | [] => []
  | entry :: rest => entry.2.files (PathText.join path entry.1) ++ filesOf path rest

end

end FileTree

end TextTemplate
