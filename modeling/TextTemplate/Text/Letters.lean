/-!
Comparison that ignores the case of ASCII letters and of no others.
-/

namespace TextTemplate.Text

def eqIgnoringCase (left right : String) : Bool :=
  left.toList.map Char.toLower == right.toList.map Char.toLower

end TextTemplate.Text
