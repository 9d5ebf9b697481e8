import TextTemplate.Code.FixedText
import TextTemplate.Macros
import TextTemplate.Text.Blank

/-!
Choices about a generated program: its shape, its names, and macro values.
-/

namespace TextTemplate

inductive Variant where
  /-- For navigation, against the base class of the shared runtime. -/
  | codeBehind
  /-- Compiled on its own: with its base class and an initializer for parameters. -/
  | executable
  /-- Executed as it is written: with its base class and no initializer. -/
  | interactive
  deriving DecidableEq, Repr, Inhabited

namespace Variant

def synthesizesBaseClass : Variant → Bool
  | .codeBehind => false
  | .executable => true
  | .interactive => true

def emitsInitializer : Variant → Bool
  | .codeBehind => false
  | .executable => true
  | .interactive => false

end Variant

structure Options where
  variant : Variant := .codeBehind
  givenNamespace? : Option String := none
  givenClassName? : Option String := none
  macros : Macros := .empty
  deriving DecidableEq, Inhabited

namespace Options

/-- The name of the class: the given one, unless it is blank. -/
def className (options : Options) : String :=
  (options.givenClassName?.bind Text.nonBlank?).getD Code.defaultClassName

/-- The namespace around the class, if a name that is not blank was given. -/
def namespace? (options : Options) : Option String :=
  options.givenNamespace?.bind Text.nonBlank?

end Options

end TextTemplate
