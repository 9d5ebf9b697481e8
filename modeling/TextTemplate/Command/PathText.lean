/-!
Paths as the command line spells them. A path is split at its slashes; the directory of a path
is its spelling up to the last name, without slashes and dots that add nothing at its end.
-/

namespace TextTemplate.PathText

def parts (path : String) : List String :=
  (path.toList.splitOn '/').map String.ofList

def fileName (path : String) : String :=
  (parts path).getLast?.getD ""

/-- Removes empty parts and single dots from the end, but never the first part: that one tells
whether the path starts at the top or at the working directory. -/
def dropIdle : List String → List String
  | [] => []
  | first :: rest => first :: (rest.reverse.dropWhile fun part => part = "" ∨ part = ".").reverse

def join (directory name : String) : String :=
  if directory = "" ∨ directory.toList.getLast? = some '/' then directory ++ name
  else directory ++ "/" ++ name

def directory (path : String) : String :=
  match dropIdle (parts path).dropLast with
  | [""] => "/"
  | kept => "/".intercalate kept

def sibling (path name : String) : String :=
  join (directory path) name

end TextTemplate.PathText
