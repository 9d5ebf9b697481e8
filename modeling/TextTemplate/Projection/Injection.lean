import TextTemplate.Projection.Table
import TextTemplate.Text.Utf16

/-!
Injections let an editor treat the code inside a template as one C# document: for every range
of code of a source, in source order, the generated text to put before it, and after the last
one the rest of the program.
-/

namespace TextTemplate

structure Injection where
  /-- Start and end of the code in the template, in UTF-16 units. -/
  start : Nat
  stop : Nat
  before : String
  after : String
  deriving DecidableEq, Repr, Inhabited

namespace ProjectionTable

/-- The verbatim ranges of a source in source order; ranges with the same start keep the order
they were generated in. -/
def codeRanges (table : ProjectionTable) (source : SourceId) : List Projection :=
  ((table.ofSource source).filter fun entry => entry.origin.kind = .code).mergeSort
    fun first second => first.origin.span.start ≤ second.origin.span.start

/-- The generated code from one offset to another; none when the second lies before the first,
as for ranges generated in another order than they stand in. -/
def codeBetween (code : String) (start stop : Nat) : String :=
  ((Text.slice? start stop code.toList).map String.ofList).getD ""

/-- The injections of ranges when the code before `done` has been placed. -/
def injectionsFrom (code text : String) (done : Nat) : List Projection → List Injection
  | [] => []
  | entry :: rest =>
    { start := Text.utf16Offset text entry.origin.span.start
      stop := Text.utf16Offset text entry.origin.span.stop
      before := codeBetween code done entry.generated.start
      after :=
        if rest.isEmpty then codeBetween code entry.generated.stop code.utf8ByteSize else "" }
      :: injectionsFrom code text entry.generated.stop rest

def injections (table : ProjectionTable) (code : String) (source : SourceId) (text : String) :
    List Injection :=
  injectionsFrom code text 0 (table.codeRanges source)

end ProjectionTable

end TextTemplate
