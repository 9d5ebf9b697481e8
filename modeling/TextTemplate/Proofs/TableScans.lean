import Mathlib.Data.List.Chain
import TextTemplate.Program.Draft
import TextTemplate.Proofs.Lookup
import TextTemplate.Proofs.Slices

/-! Halving against a scan. In a table whose ranges stand in line, halving finds what a scan of all
entries finds: the one entry around an offset, or that there is none. Recording a range behind the last
one keeps the ranges in line, so the table of everything that was written is such a table. -/

namespace TextTemplate

namespace ProjectionTable

/-- Every range is forward, and ends no later than the next one starts. Ranges may touch or be empty. -/
structure InLine (table : ProjectionTable) : Prop where
  forward : ∀ entry ∈ table.entries, entry.generated.start ≤ entry.generated.stop
  adjacent : ∀ (index : Nat) (first second : Projection), table.entries[index]? = some first →
    table.entries[index + 1]? = some second → first.generated.stop ≤ second.generated.start

def EndsBy (table : ProjectionTable) (offset : Nat) : Prop :=
  ∀ last, table.entries.back? = some last → last.generated.stop ≤ offset

/-- The entry at an index is the only one around an offset. -/
structure OnlyAround (table : ProjectionTable) (offset index : Nat) (entry : Projection) : Prop where
  here : table.entries[index]? = some entry
  within : entry.generated.contains offset = true
  only : ∀ other found, table.entries[other]? = some found → found.generated.contains offset = true →
    other = index

private def Precedes (first second : Projection) : Prop :=
  first.generated.stop ≤ second.generated.start ∧ second.generated.start ≤ second.generated.stop

variable {table : ProjectionTable} {entry : Projection} {offset : Nat}

/-- Being in line is asked of neighbours only, but forward ranges carry it on to all that follow. -/
theorem InLine.ordered (inLine : table.InLine) : table.Ordered where
  forward entry member := inLine.forward entry (Array.mem_toList_iff.mp member)
  apart := by
    have carried : Trans Precedes Precedes Precedes := by
      refine ⟨?_⟩
      intro first second third before behind
      exact ⟨Nat.le_trans before.1 (Nat.le_trans before.2 behind.1), behind.2⟩
    have chain : table.entries.toList.IsChain Precedes := by
      apply List.isChain_iff_getElem.mpr
      intro index bound
      have inside : index + 1 < table.entries.size := bound
      constructor
      · apply inLine.adjacent index
        · exact Array.getElem?_eq_getElem (Nat.lt_of_succ_lt inside)
        · exact Array.getElem?_eq_getElem inside
      · apply inLine.forward
        exact Array.getElem_mem inside
    have apart := List.isChain_iff_pairwise.mp chain
    apply apart.imp
    intro first second precedes
    exact precedes.1

theorem inLine_empty : ({} : ProjectionTable).InLine where
  forward := by
    intro entry member
    cases Array.not_mem_empty entry member
  adjacent := by
    intro index first second here
    cases here

theorem InLine.record (inLine : table.InLine) (forward : entry.generated.start ≤ entry.generated.stop)
    (behind : table.EndsBy entry.generated.start) : (table.record entry).InLine where
  forward := by
    intro other member
    rcases Array.mem_push.mp member with old | rfl
    · exact inLine.forward other old
    · exact forward
  adjacent := by
    intro index first second here next
    simp only [ProjectionTable.record, Array.getElem?_push] at here next
    split at next
    next last =>
      cases next
      rw [if_neg (by omega)] at here
      apply behind
      rw [Array.back?_eq_getElem?, ← here, ← last, Nat.add_sub_cancel]
    next other =>
      have inside := (Array.getElem?_eq_some_iff.mp next).1
      rw [if_neg (by omega)] at here
      exact inLine.adjacent index first second here next

theorem endsBy_empty (offset : Nat) : ({} : ProjectionTable).EndsBy offset := by
  intro last found
  cases found

theorem EndsBy.mono (ends : table.EndsBy offset) {later : Nat} (within : offset ≤ later) : table.EndsBy later := by
  intro last found
  exact Nat.le_trans (ends last found) within

theorem endsBy_record (entry : Projection) : (table.record entry).EndsBy entry.generated.stop := by
  intro last found
  rw [ProjectionTable.record, Array.back?_push] at found
  cases found
  exact Nat.le_refl _

private theorem Ordered.index_unique (ordered : table.Ordered) {index other : Nat} {found : Projection}
    (here : table.entries[index]? = some entry) (within : entry.generated.contains offset = true)
    (there : table.entries[other]? = some found) (around : found.generated.contains offset = true) :
    other = index := by
  obtain ⟨small, rfl⟩ := Array.getElem?_eq_some_iff.mp here
  obtain ⟨bound, rfl⟩ := Array.getElem?_eq_some_iff.mp there
  have apart := List.pairwise_iff_getElem.mp ordered.apart
  simp only [Array.length_toList, Array.getElem_toList] at apart
  rw [Span.contains_iff] at within around
  rcases Nat.lt_trichotomy other index with before | same | after
  · have order := apart other index bound small before
    omega
  · exact same
  · have order := apart index other small bound after
    omega

private theorem Ordered.onlyAround_iff (ordered : table.Ordered) :
    (∃ index, table.OnlyAround offset index entry) ↔
      entry ∈ table.entries ∧ entry.generated.contains offset = true := by
  constructor
  · rintro ⟨index, alone⟩
    exact ⟨Array.mem_of_getElem? alone.here, alone.within⟩
  · rintro ⟨member, within⟩
    obtain ⟨index, here⟩ := Array.mem_iff_getElem?.mp member
    refine ⟨index, here, within, ?_⟩
    intro other found there around
    exact ordered.index_unique here within there around

theorem findGenerated?_eq_none_iff (ordered : table.Ordered) :
    table.findGenerated? offset = none ↔ ∀ entry ∈ table.entries, entry.generated.contains offset = false := by
  constructor
  · intro nothing entry member
    apply Bool.eq_false_iff.mpr
    intro within
    have found := (findGenerated?_eq_some_iff ordered).mpr ⟨member, within⟩
    cases nothing.symm.trans found
  · intro outside
    apply Option.eq_none_iff_forall_ne_some.mpr
    intro entry found
    obtain ⟨member, within⟩ := (findGenerated?_eq_some_iff ordered).mp found
    cases (outside entry member).symm.trans within

private theorem findGenerated?_eq_scan (ordered : table.Ordered) :
    table.findGenerated? offset = table.entries.toList.find? fun entry => entry.generated.contains offset := by
  cases scanned : table.entries.toList.find? fun entry => entry.generated.contains offset with
  | none =>
    apply (findGenerated?_eq_none_iff ordered).mpr
    intro entry member
    apply Bool.eq_false_iff.mpr
    exact List.find?_eq_none.mp scanned entry (Array.mem_toList_iff.mpr member)
  | some entry =>
    apply (findGenerated?_eq_some_iff ordered).mpr
    constructor
    · exact Array.mem_toList_iff.mp (List.mem_of_find?_eq_some scanned)
    · exact List.find?_some (p := fun entry : Projection => entry.generated.contains offset) scanned

end ProjectionTable

namespace Draft

/-- The ranges of the table are in line, and none of them reaches beyond what is written. -/
structure Recorded (draft : Draft) : Prop where
  inLine : draft.table.InLine
  endsBy : draft.table.EndsBy draft.position

private theorem recorded_empty : ({} : Draft).Recorded where
  inLine := ProjectionTable.inLine_empty
  endsBy := ProjectionTable.endsBy_empty _

namespace Recorded
variable {draft : Draft}

theorem write (recorded : draft.Recorded) (text : String) : (draft.write text).Recorded where
  inLine := recorded.inLine
  endsBy := by
    apply recorded.endsBy.mono
    simp only [position, Draft.write, String.utf8ByteSize_append]
    omega

private theorem writeMapped (recorded : draft.Recorded) (text : String) (origin : Origin) :
    (draft.writeMapped text origin).Recorded := by
  unfold Draft.writeMapped
  split
  · exact recorded.write text
  · constructor
    · apply recorded.inLine.record
      · simp only [position, Draft.write, String.utf8ByteSize_append]
        omega
      · exact recorded.endsBy
    · apply ProjectionTable.endsBy_record

private theorem writePiece (recorded : draft.Recorded) (piece : Piece) : (draft.writePiece piece).Recorded := by
  unfold Draft.writePiece
  split
  · exact recorded.write piece.text
  · exact recorded.writeMapped piece.text _

private theorem writePieces (recorded : draft.Recorded) (pieces : List Piece) :
    (draft.writePieces pieces).Recorded := by
  induction pieces generalizing draft with
  | nil => exact recorded
  | cons piece rest ih =>
    apply ih
    exact recorded.writePiece piece

end Recorded

end Draft

namespace ProjectionTable

/-- Where the ranges of a table are in line, halving agrees with a scan of all entries: it gives an entry
exactly if that is the only one around the offset, and nothing exactly if none is around it. Whatever is
written into an empty draft leaves the ranges in line. -/
theorem lookup_scans :
    (∀ table : ProjectionTable, table.InLine → ∀ offset : Nat,
      table.findGenerated? offset = table.entries.toList.find? (fun entry => entry.generated.contains offset) ∧
      (∀ entry, table.findGenerated? offset = some entry ↔ ∃ index, table.OnlyAround offset index entry) ∧
      (table.findGenerated? offset = none ↔
        ∀ entry ∈ table.entries, entry.generated.contains offset = false)) ∧
    ∀ pieces : List Piece, (({} : Draft).writePieces pieces).table.InLine := by
  constructor
  · intro table inLine offset
    have ordered := inLine.ordered
    refine ⟨findGenerated?_eq_scan ordered, ?_, findGenerated?_eq_none_iff ordered⟩
    intro entry
    exact (findGenerated?_eq_some_iff ordered).trans ordered.onlyAround_iff.symm
  · intro pieces
    have recorded := Draft.recorded_empty.writePieces pieces
    exact recorded.inLine

def copied (span : Span) : Projection := ⟨span, ⟨⟨"a"⟩, span, .code⟩, 0⟩

def touching : ProjectionTable :=
  (((ProjectionTable.record {} (copied ⟨0, 3⟩)).record (copied ⟨3, 3⟩)).record (copied ⟨3, 5⟩)).record (copied ⟨7, 9⟩)

private theorem touching_inLine : touching.InLine := by
  apply InLine.record _ (by decide) ((endsBy_record (copied ⟨3, 5⟩)).mono (by decide))
  apply InLine.record _ (by decide) (endsBy_record (copied ⟨3, 3⟩))
  apply InLine.record _ (by decide) (endsBy_record (copied ⟨0, 3⟩))
  exact inLine_empty.record (by decide) (endsBy_empty _)

theorem lookup_scans_touching : touching.InLine ∧
    (touching.findGenerated? 2).map (·.generated) = some ⟨0, 3⟩ ∧
    (touching.findGenerated? 3).map (·.generated) = some ⟨3, 5⟩ ∧
    touching.findGenerated? 5 = none ∧ (touching.findGenerated? 7).map (·.generated) = some ⟨7, 9⟩ ∧
    touching.findGenerated? 9 = none := by
  have scan (offset : Nat) := (lookup_scans.1 touching touching_inLine offset).1
  refine ⟨touching_inLine, ?_, ?_, ?_, ?_, ?_⟩
  all_goals rw [scan]; decide

end ProjectionTable

end TextTemplate
