import TextTemplate.Projection

/-!
The projections of one program, in the order of their generated ranges, which do not overlap.
A generated offset is looked up by halving; an offset of a source may have been generated
several times, and the first entry counts.
-/

namespace TextTemplate

/-- Halves the `size` indices from `base` until one is left, keeping above those that pass. -/
def halve (passes : Nat → Bool) (base size : Nat) : Nat :=
  if size ≤ 1 then
    base
  else
    halve passes (if passes (base + size / 2) then base + size / 2 else base) (size - size / 2)
termination_by size
decreasing_by omega

/-- The first of `size` indices that does not pass, when those that pass come first. -/
def partitionPoint (passes : Nat → Bool) (size : Nat) : Nat :=
  if size = 0 then
    0
  else
    let last := halve passes 0 size
    if passes last then last + 1 else last

structure ProjectionTable where
  entries : Array Projection := #[]
  deriving DecidableEq, Repr, Inhabited

namespace ProjectionTable

def record (table : ProjectionTable) (projection : Projection) : ProjectionTable :=
  ⟨table.entries.push projection⟩

def size (table : ProjectionTable) : Nat :=
  table.entries.size

def isEmpty (table : ProjectionTable) : Bool :=
  table.entries.isEmpty

/-- Whether the generated range of an entry ends at or before an offset. -/
def endsBefore (table : ProjectionTable) (offset index : Nat) : Bool :=
  match table.entries[index]? with
  | some entry => entry.generated.stop ≤ offset
  | none => false

def findGenerated? (table : ProjectionTable) (offset : Nat) : Option Projection :=
  (table.entries[partitionPoint (table.endsBefore offset) table.size]?).filter fun entry =>
    entry.generated.contains offset

/-- The first entry that comes from around an offset of a source. -/
def findOrigin? (table : ProjectionTable) (source : SourceId) (offset : Nat) :
    Option Projection :=
  table.entries.toList.find? fun entry =>
    entry.origin.source = source && entry.origin.span.contains offset

def ofSource (table : ProjectionTable) (source : SourceId) : List Projection :=
  table.entries.toList.filter fun entry => entry.origin.source = source

end ProjectionTable

end TextTemplate
