import TextTemplate.Template

/-!
Problems: what was skipped while collecting, why and where. None of them stops generation.
-/

namespace TextTemplate

inductive ProblemKind where
  | unresolvedInclude
  | cyclicInclude
  | malformedDirective
  deriving DecidableEq, Repr, Inhabited

namespace ProblemKind

def title : ProblemKind → String
  | .unresolvedInclude => "Unresolved include"
  | .cyclicInclude => "Cyclic include"
  | .malformedDirective => "Malformed directive"

/-- Whether such a problem leaves an include unexpanded. -/
def interrupts : ProblemKind → Bool
  | .unresolvedInclude => true
  | .cyclicInclude => true
  | .malformedDirective => false

end ProblemKind

structure Problem where
  kind : ProblemKind
  source : SourceId
  span : Span
  message : String
  deriving DecidableEq, Repr, Inhabited

/-- What can go wrong with a directive or an include. -/
inductive Complaint where
  /-- An include written as a directive, which is never expanded. -/
  | bareInclude
  | unresolved (file : String)
  | cyclic (source : SourceId)
  | missingAttribute (directiveName attributeName : String)
  deriving DecidableEq, Repr, Inhabited

namespace Complaint

def kind : Complaint → ProblemKind
  | .bareInclude => .unresolvedInclude
  | .unresolved _ => .unresolvedInclude
  | .cyclic _ => .cyclicInclude
  | .missingAttribute _ _ => .malformedDirective

def message : Complaint → String
  | .bareInclude => "`include` directive was not expanded"
  | .unresolved file => "cannot resolve include `" ++ file ++ "`"
  | .cyclic source => "`" ++ source.path ++ "` is already being expanded"
  | .missingAttribute directiveName attributeName =>
    "`" ++ directiveName ++ "` directive requires a non-empty `" ++ attributeName ++ "` attribute"

def problem (complaint : Complaint) (source : SourceId) (span : Span) : Problem where
  kind := complaint.kind
  source := source
  span := span
  message := complaint.message

end Complaint

end TextTemplate
