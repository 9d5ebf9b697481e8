import TextTemplate.Text.Width

/-!
Spans: half-open byte ranges of one text. Nothing forces a span to fit its text or to be in
order, so every reading of a span is total. Offsets are words, and a sum of two may be none: it
overflows, which ends whatever needs it.
-/

namespace TextTemplate

/-- The number of 64-bit words, which offsets are. -/
def offsetBound : Nat := 18446744073709551616

/-- A sum of offsets was no word. Nothing is left but this: whoever asked for the sum has no result. -/
structure Overflow where
  deriving DecidableEq, Repr, Inhabited

def addOffsets (base distance : Nat) : Except Overflow Nat :=
  if base + distance < offsetBound then .ok (base + distance) else .error ⟨⟩

/-- The bytes from `start` up to, but not including, `stop`. -/
structure Span where
  start : Nat
  stop : Nat
  deriving DecidableEq, Repr, Inhabited

namespace Span

/-- The number of bytes covered; an inverted span covers none. -/
def length (span : Span) : Nat :=
  span.stop - span.start

def isEmpty (span : Span) : Bool :=
  span.stop ≤ span.start

def contains (span : Span) (offset : Nat) : Bool :=
  span.start ≤ offset && offset < span.stop

/-- Whether both ends are words. -/
def fits (span : Span) : Bool :=
  span.start < offsetBound && span.stop < offsetBound

/-- The part of the span between two distances from its start. The sums are exact; unless the part
`fits`, one of them overflows. -/
def narrow (span : Span) (first last : Nat) : Span :=
  ⟨span.start + first, span.start + last⟩

/-- The text the span covers, when it is a range of whole characters of `text`. -/
def slice? (span : Span) (text : String) : Option String :=
  (Text.slice? span.start span.stop text.toList).map String.ofList

end Span

end TextTemplate
