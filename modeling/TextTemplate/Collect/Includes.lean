import TextTemplate.Template

/-!
Where includes lead. Whatever resolves an include chooses among finitely many templates; that
is what makes every expansion end.
-/

namespace TextTemplate

structure Includes where
  templates : List Template
  /-- The template an include written in `origin` refers to. -/
  resolve? (origin : SourceId) (inclusion : Inclusion) : Option Template
  resolve?_mem {origin : SourceId} {inclusion : Inclusion} {target : Template}
    (found : resolve? origin inclusion = some target) : target ∈ templates

namespace Includes

def none : Includes where
  templates := []
  resolve? _ _ := Option.none
  resolve?_mem found := by cases found

end Includes

end TextTemplate
