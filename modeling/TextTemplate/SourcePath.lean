import TextTemplate.Template

/-!
Paths of templates. A path is read as segments between separators, and an include is resolved
against the directory of the template that contains it. The result is normal: no empty segment,
no `.`, and `..` only at the front of a relative path.
-/

namespace TextTemplate.SourcePath

/-- The parts of a path between separators; a backslash separates like a slash. -/
def segments (path : List Char) : List (List Char) :=
  (path.map fun c => if c = '\\' then '/' else c).splitOn '/'

/-- Whether the segments are those of a path that starts with a separator. -/
def isAbsolute : List (List Char) → Bool
  | [] :: _ :: _ => true
  | _ => false

/-- The segments of `file` seen from the directory of `origin`. -/
def joined (origin file : List Char) : List (List Char) :=
  if isAbsolute (segments file) then
    segments file
  else
    (segments origin).dropLast ++ segments file

/-- One step of a walk: where `visited` leads, innermost segment first, after `segment`. -/
def advance (absolute : Bool) (visited : List (List Char)) (segment : List Char) :
    List (List Char) :=
  if segment = [] ∨ segment = ['.'] then
    visited
  else if segment = ['.', '.'] then
    match visited with
    | last :: rest =>
      if last ≠ ['.', '.'] then rest
      else if absolute then visited
      else segment :: visited
    | [] => if absolute then [] else [segment]
  else
    segment :: visited

def normalize (path : List (List Char)) : List (List Char) :=
  (path.foldl (advance (isAbsolute path)) []).reverse

def render (absolute : Bool) (path : List (List Char)) : List Char :=
  let relative := ['/'].intercalate path
  if absolute then '/' :: relative else relative

/-- The normal path of `file` as it is written in the template `origin`. -/
def resolve (origin file : String) : String :=
  let path := joined origin.toList file.toList
  String.ofList (render (isAbsolute path) (normalize path))

end TextTemplate.SourcePath
