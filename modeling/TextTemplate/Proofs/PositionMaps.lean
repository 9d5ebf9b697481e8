import TextTemplate.Proofs.EscapedRanges
import TextTemplate.Proofs.Lookup
import TextTemplate.Proofs.TracedCode

/-! The position maps of a generated program undo each other, up to rounding down to a character.
A single entry carries offsets both ways by the units of its text; which entry is asked does not
matter, because the template alone decides whether the range around an offset was escaped. -/

namespace TextTemplate
open Text

/-- Where an offset of a template leads back to: itself, or the start of the character around it. -/
def OriginKind.rounded (kind : OriginKind) (template : Template) (offset : Nat) : Nat :=
  match kind with
  | .code => offset
  | .text => characterStart template.text.toList offset

namespace Projection

/-- In `code`, the entry stands for the range of the template that covers `original`. Both texts
are short enough for their offsets to be words. -/
structure Renders (entry : Projection) (template : Template) (code : String) (original : List Char) : Prop where
  origin : entry.origin.span.Covers template.text.toList original
  generated : entry.generated.Covers code.toList (entry.origin.kind.write original)
  template_lt : template.text.utf8ByteSize < offsetBound
  code_lt : code.utf8ByteSize < offsetBound

variable {entry : Projection} {template : Template} {code : String} {original : List Char}

theorem toOrigin?_code (verbatim : entry.origin.kind = .code) {place offset : Nat}
    (within : entry.generated.contains place = true) : entry.toOrigin? code place = .ok (some offset) ↔
      entry.origin.span.start + (place - entry.generated.start) = offset ∧ offset < offsetBound := by
  rw [toOrigin?_eq_some_iff, originDistance?, if_pos within]
  simp only [verbatim, Option.some.injEq, exists_eq_left']

theorem toGenerated?_code (verbatim : entry.origin.kind = .code) {place offset : Nat}
    (within : entry.origin.span.contains offset = true) : entry.toGenerated? code offset = .ok (some place) ↔
      entry.generated.start + (offset - entry.origin.span.start) = place ∧ place < offsetBound := by
  rw [toGenerated?_eq_some_iff, generatedDistance?, if_pos within]
  simp only [verbatim, Option.some.injEq, exists_eq_left']

namespace Renders

theorem bounds (renders : entry.Renders template code original) :
    entry.origin.span.start + width original < offsetBound ∧
      entry.generated.start + width (entry.origin.kind.write original) < offsetBound := by
  have above := renders.origin.stop_le
  have last := renders.generated.stop_le
  have small := renders.template_lt
  have short := renders.code_lt
  rw [width_toList] at above last
  rw [← renders.origin.stop_eq, ← renders.generated.stop_eq]
  exact ⟨by omega, by omega⟩

private theorem carries_code (renders : entry.Renders template code original) (kind : entry.origin.kind = .code)
    {offset : Nat} (within : entry.origin.span.contains offset = true) :
    ∃ place, entry.toGenerated? code offset = .ok (some place) ∧ entry.generated.contains place = true ∧
      entry.toOrigin? code place = .ok (some offset) := by
  obtain ⟨small, short⟩ := renders.bounds
  obtain ⟨lower, upper⟩ := renders.origin.contains_iff.mp within
  have covers := renders.generated
  rw [kind, OriginKind.write] at short covers
  have inside := covers.contains_iff.mpr (show entry.generated.start ≤ entry.generated.start +
    (offset - entry.origin.span.start) ∧ _ from ⟨by omega, by omega⟩)
  refine ⟨_, (toGenerated?_code kind within).mpr ⟨rfl, by omega⟩, inside, (toOrigin?_code kind inside).mpr ⟨?_, ?_⟩⟩
  · rw [Nat.add_sub_cancel_left, Nat.add_sub_cancel' lower]
  · omega

theorem escapes (renders : entry.Renders template code original) (kind : entry.origin.kind = .text) :
    entry.Escapes code original where
  kind := kind
  covers := by
    have covers := renders.generated
    rwa [kind] at covers
  length := by rw [Span.length, renders.origin.stop_eq, Nat.add_sub_cancel_left]
  word := by
    have small := renders.bounds.1
    have stop := renders.origin.stop_eq
    exact ⟨by omega, by omega⟩
  code_lt := renders.code_lt

theorem characterStart_eq (renders : entry.Renders template code original) {offset : Nat}
    (within : entry.origin.span.contains offset = true) :
    entry.origin.span.start + characterStart original (offset - entry.origin.span.start) =
      characterStart template.text.toList offset := by
  obtain ⟨lower, upper⟩ := renders.origin.contains_iff.mp within
  obtain ⟨before, c, after, split, reached, stopped⟩ :=
    exists_character (show offset - entry.origin.span.start < width original by omega)
  obtain ⟨front, back, whole, start, -⟩ := renders.origin
  have around : template.text.toList = (front ++ before) ++ c :: (after ++ back) := by simp [whole, split]
  rw [around, split, characterStart_append_cons reached stopped, characterStart_append_cons, width_append, start]
  · rw [width_append]
    omega
  · rw [width_append]
    omega

private theorem carries_text (renders : entry.Renders template code original) (kind : entry.origin.kind = .text)
    {offset : Nat} (within : entry.origin.span.contains offset = true) :
    ∃ place, entry.toGenerated? code offset = .ok (some place) ∧ entry.generated.contains place = true ∧
      entry.toOrigin? code place = .ok (some (characterStart template.text.toList offset)) := by
  rw [← renders.characterStart_eq within]
  exact (renders.escapes kind).carries_offset within

private theorem carries (renders : entry.Renders template code original) {offset : Nat}
    (within : entry.origin.span.contains offset = true) :
    ∃ place, entry.toGenerated? code offset = .ok (some place) ∧ entry.generated.contains place = true ∧
      entry.toOrigin? code place = .ok (some (entry.origin.kind.rounded template offset)) := by
  cases kind : entry.origin.kind with
  | code => exact renders.carries_code kind within
  | text => exact renders.carries_text kind within

private theorem settles_code (renders : entry.Renders template code original) (kind : entry.origin.kind = .code)
    {place offset : Nat} (led : entry.toOrigin? code place = .ok (some offset)) :
    entry.origin.span.contains offset = true ∧
      ∀ first, entry.toGenerated? code offset = .ok (some first) → first ≤ place := by
  obtain ⟨small, short⟩ := renders.bounds
  have within := contains_of_toOrigin? led
  obtain ⟨lower, upper⟩ := renders.generated.contains_iff.mp within
  rw [kind, OriginKind.write] at short upper
  obtain ⟨same, -⟩ := (toOrigin?_code kind within).mp led
  have inside : entry.origin.span.contains offset = true :=
    renders.origin.contains_iff.mpr ⟨by omega, by omega⟩
  refine ⟨inside, ?_⟩
  intro first carried
  obtain ⟨near, -⟩ := (toGenerated?_code kind inside).mp carried
  omega

private theorem settles_text (renders : entry.Renders template code original) (kind : entry.origin.kind = .text)
    {place offset : Nat} (led : entry.toOrigin? code place = .ok (some offset)) :
    entry.origin.span.contains offset = true ∧ characterStart template.text.toList offset = offset ∧
      ∀ first, entry.toGenerated? code offset = .ok (some first) → first ≤ place := by
  have escapes := renders.escapes kind
  obtain ⟨before, c, after, split, reached, stopped⟩ := escapes.exists_unit (contains_of_toOrigin? led)
  cases led.symm.trans (escapes.toOrigin?_unit split reached stopped)
  obtain ⟨-, inside, -, back⟩ := escapes.carries_start split
  refine ⟨inside, ?_, ?_⟩
  · rw [← renders.characterStart_eq inside, Nat.add_sub_cancel_left, split,
      characterStart_append_cons (Nat.le_refl _) (Nat.lt_add_of_pos_right (Char.utf8Size_pos c))]
  · intro first carried
    cases back.symm.trans carried
    exact reached

/-- A generated offset leads to the start of a character, and that to the first generated offset
that leads there. -/
theorem settles (renders : entry.Renders template code original) {place offset : Nat}
    (led : entry.toOrigin? code place = .ok (some offset)) :
    entry.origin.span.contains offset = true ∧ entry.origin.kind.rounded template offset = offset ∧
      ∀ first, entry.toGenerated? code offset = .ok (some first) → first ≤ place := by
  cases kind : entry.origin.kind with
  | code =>
    obtain ⟨inside, least⟩ := renders.settles_code kind led
    exact ⟨inside, rfl, least⟩
  | text => exact renders.settles_text kind led

end Renders

end Projection

namespace Program
variable {program : Program} {source : SourceId} {offset place : Nat}

private theorem originPosition?_of_entry (ordered : program.table.Ordered) {entry : Projection}
    (member : entry ∈ program.table.entries) (within : entry.generated.contains place = true)
    (led : entry.toOrigin? program.code place = .ok (some offset)) :
    program.originPosition? place = .ok (some (entry.origin.source, offset)) := by
  have located := (ProjectionTable.findGenerated?_eq_some_iff ordered).mpr ⟨member, within⟩
  simp only [originPosition?, located, led]
  rfl

private theorem entry_of_originPosition? (ordered : program.table.Ordered)
    (positioned : program.originPosition? place = .ok (some (source, offset))) :
    ∃ entry, entry ∈ program.table.entries ∧ entry.origin.source = source ∧
      entry.generated.contains place = true ∧ entry.toOrigin? program.code place = .ok (some offset) := by
  unfold originPosition? at positioned
  split at positioned
  next entry located =>
    obtain ⟨member, within⟩ := (ProjectionTable.findGenerated?_eq_some_iff ordered).mp located
    cases led : entry.toOrigin? program.code place with
    | error overflow =>
      rw [led] at positioned
      cases positioned
    | ok origin? =>
      rw [led] at positioned
      obtain ⟨origin, rfl, same⟩ := Option.map_eq_some_iff.mp (Except.ok.inj positioned)
      cases same
      exact ⟨entry, member, rfl, within, led⟩
  next => cases positioned

theorem generatedPosition?_of_find {entry : Projection} (found : program.table.findOrigin? source offset = some entry) :
    program.generatedPosition? source offset = entry.toGenerated? program.code offset := by
  simp only [generatedPosition?, found]

end Program

namespace Bundle
variable {bundle : Bundle} {options : Options} {program : Program}

section
variable (built : bundle.IsBuilt) (addressable : bundle.Addressable)
  (generated : bundle.generate options = .ok program) (code_lt : program.code.utf8ByteSize < offsetBound)
include built addressable generated code_lt

theorem entry_renders {entry : Projection} (member : entry ∈ program.table.entries) :
    ∃ template original, bundle.find? entry.origin.source = some template ∧
      entry.Renders template program.code original ∧
      ∀ offset, entry.origin.span.contains offset = true →
        (template.IsTextAt offset ↔ entry.origin.kind = .text) := by
  obtain ⟨template, original, found, yields, covers⟩ := entry_yields built generated member
  have known : template ∈ bundle.templates := List.mem_of_find?_eq_some found
  exact ⟨template, original, found, ⟨yields.covers, covers, addressable template known, code_lt⟩, yields.kind⟩

theorem findOrigin?_carries {source : SourceId} {offset : Nat} {entry : Projection}
    (found : program.table.findOrigin? source offset = some entry) :
    ∃ template first, bundle.find? source = some template ∧
      program.generatedPosition? source offset = .ok (some first) ∧ entry.generated.contains first = true ∧
      program.originPosition? first = .ok (some (source, entry.origin.kind.rounded template offset)) := by
  have ordered := table_ordered generated
  obtain ⟨member, rfl, within, -⟩ := ProjectionTable.findOrigin?_first ordered found
  obtain ⟨template, original, home, renders, -⟩ := entry_renders built addressable generated code_lt member
  obtain ⟨first, there, inside, back⟩ := renders.carries within
  refine ⟨template, first, home, ?_, inside, Program.originPosition?_of_entry ordered member inside back⟩
  rw [Program.generatedPosition?_of_find found, there]

private theorem kind_eq_of_contains {first second : Projection} (known : first ∈ program.table.entries)
    (member : second ∈ program.table.entries) (same : first.origin.source = second.origin.source) {offset : Nat}
    (around : first.origin.span.contains offset = true) (within : second.origin.span.contains offset = true) :
    first.origin.kind = second.origin.kind := by
  obtain ⟨template, -, home, -, textual⟩ := entry_renders built addressable generated code_lt known
  obtain ⟨other, -, found, -, alike⟩ := entry_renders built addressable generated code_lt member
  rw [same] at home
  cases home.symm.trans found
  have kinds := (textual offset around).symm.trans (alike offset within)
  cases escaped : second.origin.kind with
  | text => exact kinds.mpr escaped
  | code =>
    cases kind : first.origin.kind with
    | code => rfl
    | text => cases (kinds.mp kind).symm.trans escaped

/-- The offset a generated one leads to was generated first where the position map says. -/
theorem originPosition?_least {source : SourceId} {offset place : Nat}
    (positioned : program.originPosition? place = .ok (some (source, offset))) :
    ∃ first, program.generatedPosition? source offset = .ok (some first) ∧
      program.originPosition? first = .ok (some (source, offset)) ∧
      ∀ other, program.originPosition? other = .ok (some (source, offset)) → first ≤ other := by
  have ordered := table_ordered generated
  obtain ⟨entry, member, same, -, led⟩ := Program.entry_of_originPosition? ordered positioned
  obtain ⟨template, original, home, renders, -⟩ := entry_renders built addressable generated code_lt member
  obtain ⟨within, settled, -⟩ := renders.settles led
  obtain ⟨earliest, found⟩ := ProjectionTable.exists_findOrigin? member same within
  obtain ⟨known, named, around, behind⟩ := ProjectionTable.findOrigin?_first ordered found
  obtain ⟨target, first, place_, there, inside, back⟩ :=
    findOrigin?_carries built addressable generated code_lt found
  have kind := kind_eq_of_contains built addressable generated code_lt known member
    (named.trans same.symm) around within
  rw [same] at home
  cases home.symm.trans place_
  rw [kind, settled] at back
  refine ⟨first, there, back, fun other led => ?_⟩
  obtain ⟨rival, listed, owned, contained, leads⟩ := Program.entry_of_originPosition? ordered led
  obtain ⟨_, _, _, rendered, _⟩ := entry_renders built addressable generated code_lt listed
  obtain ⟨covered, -, least⟩ := rendered.settles leads
  rcases behind rival listed owned covered with rfl | later
  · rw [Program.generatedPosition?_of_find found] at there
    exact least first there
  · have below := (Span.contains_iff.mp inside).2
    have above := (Span.contains_iff.mp contained).1
    omega

end

/-- For a bundle whose templates were built: a generated offset found for an offset of a source
leads back to that offset, in text to the start of the character around it; and the generated
offset found for the offset another one leads to is the least that leads there. -/
theorem positions_inverse (built : bundle.IsBuilt) (addressable : bundle.Addressable)
    (generated : bundle.generate options = .ok program) (code_lt : program.code.utf8ByteSize < offsetBound)
    (source : SourceId) (offset place : Nat) :
    (program.generatedPosition? source offset = .ok (some place) →
      ∃ entry, program.table.findOrigin? source offset = some entry ∧
        program.originPosition? place = .ok (some (source, match entry.origin.kind with
          | .code => offset
          | .text => characterStart (bundle.textOf source).toList offset))) ∧
    (program.originPosition? place = .ok (some (source, offset)) →
      ∃ first, program.generatedPosition? source offset = .ok (some first) ∧
        program.originPosition? first = .ok (some (source, offset)) ∧
        ∀ other, program.originPosition? other = .ok (some (source, offset)) → first ≤ other) := by
  refine ⟨fun positioned => ?_, originPosition?_least built addressable generated code_lt⟩
  obtain ⟨entry, found⟩ : ∃ entry, program.table.findOrigin? source offset = some entry := by
    unfold Program.generatedPosition? at positioned
    split at positioned
    next entry found => exact ⟨entry, found⟩
    next => cases positioned
  obtain ⟨template, first, home, there, -, back⟩ :=
    findOrigin?_carries built addressable generated code_lt found
  cases positioned.symm.trans there
  refine ⟨entry, found, back.trans ?_⟩
  rw [textOf, home]
  rfl

theorem positions_inverse_sample : ∃ program, sample.generate {} = .ok program ∧
    program.generatedPosition? ⟨"a"⟩ 6 = .ok (some 349) ∧ program.originPosition? 349 = .ok (some (⟨"a"⟩, 6)) ∧
    ∀ other, program.originPosition? other = .ok (some (⟨"a"⟩, 6)) → 349 ≤ other := by
  obtain ⟨program, generated, code_lt, entries⟩ := sample_generate
  have found : program.table.findOrigin? ⟨"a"⟩ 6 = some ⟨⟨349, 350⟩, ⟨⟨"a"⟩, ⟨6, 7⟩, .code⟩, 8⟩ := by
    rw [ProjectionTable.findOrigin?, entries]
    decide
  have there : program.generatedPosition? ⟨"a"⟩ 6 = .ok (some 349) := by
    rw [Program.generatedPosition?_of_find found, Projection.toGenerated?_code rfl rfl]
    decide
  have addressable : sample.Addressable := by
    intro template member
    cases List.mem_singleton.mp member
    decide
  have inverse := positions_inverse sample_built addressable generated code_lt ⟨"a"⟩ 6 349
  obtain ⟨entry, same, back⟩ := inverse.1 there
  cases found.symm.trans same
  obtain ⟨first, again, -, least⟩ := inverse.2 back
  cases there.symm.trans again
  exact ⟨program, generated, there, back, least⟩

end Bundle

end TextTemplate
