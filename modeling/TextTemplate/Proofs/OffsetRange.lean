import TextTemplate.Exchange.Reading
import TextTemplate.Proofs.LocatedReports

/-! Sums of offsets. The only offsets a program is computed from are those of trimmed attribute values and
of the lines of runs, both counted from the start of a span that may be any. A sum that is no offset any more
ends the generation; otherwise every range is where its text was counted to be. -/

namespace TextTemplate
open Text

private theorem Encounter.Writes.places {encounter : Encounter} {piece : Piece} (writes : encounter.Writes piece)
    {origin : Origin} (remembered : piece.origin? = some origin) :
    ∃ original, encounter.Places origin.kind original origin.span ∧ encounter.source = origin.source ∧
      piece.text.toList = origin.kind.write original := by
  have unmapped (plain : piece.origin? = none) : False := by
    rw [plain] at remembered
    cases remembered
  cases encounter with
  | run source texts =>
    obtain ⟨segment, pending, written⟩ := List.mem_flatMap.mp writes
    rcases Segment.mem_writesFrom written with plain | ⟨earlier, line, later, split, rfl⟩
    · exact (unmapped plain).elim
    · rw [Nat.zero_add] at remembered
      cases Piece.eq_of_mapped remembered
      refine ⟨line, .line source ⟨segment, pending, earlier, later, split, rfl⟩, rfl, ?_⟩
      rw [Piece.mapped_text, String.toList_ofList]
      rfl
  | directive source given =>
    rcases writes with plain | ⟨name, value, carried, rfl⟩
    · exact (unmapped plain).elim
    · cases Piece.eq_of_mapped remembered
      refine ⟨value.1.toList, .value source (Directive.value?_eq_some_iff.mp carried), rfl, ?_⟩
      rw [Piece.mapped_text]
      rfl
  | code source depth fragment =>
    rcases writes with plain | rfl
    · exact (unmapped plain).elim
    · cases Piece.eq_of_mapped remembered
      refine ⟨fragment.code.toList, .code source depth fragment, rfl, ?_⟩
      rw [Piece.mapped_text]
      rfl
  | refused source reference complaint => cases writes
  | expanded source reference target => cases writes

namespace Bundle
variable {bundle : Bundle} {options : Options} {program : Program}

private theorem entry_written (generated : bundle.generate options = .ok program) {entry : Projection}
    (member : entry ∈ program.table.entries) : ∃ visit ∈ bundle.encounters options, ∃ piece,
      visit.Writes piece ∧ piece.origin? = some entry.origin ∧
      entry.generated.Covers program.code.toList piece.text.toList := by
  cases program_encounters generated
  obtain ⟨kind, piece, own, remembered, -, covers⟩ := Program.assemble_covers member
  rcases Walk.mem_gatherAll own with before | ⟨visit, listed, writes⟩
  · cases kind <;> cases before
  · exact ⟨visit, listed, piece, writes, remembered, covers⟩

/-- Whatever its spans and the options, a bundle with a root has a program exactly if each place that a sum is
taken for has offsets; then the program maps code to text that was written for it, and refers to assemblies,
where that text was counted to be. Otherwise the generation ends in an overflow, which a bundle with room behind
its spans never does. -/
theorem spans_counted (bundle : Bundle) (options : Options) :
    (match bundle.generate options with
      | .ok program => (∀ span, bundle.Takes options span → span.IsWord) ∧
        (∀ entry ∈ program.table.entries, ∃ visit ∈ bundle.encounters options, ∃ original,
          visit.Places entry.origin.kind original entry.origin.span ∧ visit.source = entry.origin.source ∧
          entry.generated.Covers program.code.toList (entry.origin.kind.write original)) ∧
        ∀ reference ∈ program.references, ∃ visit ∈ bundle.encounters options, ∃ original,
          visit.Places .code original reference.span ∧ visit.source = reference.source ∧
          reference.name = (options.macros.withDefaults bundle.macros).expand (.ofList original)
      | .error problem => problem = .missingRoot bundle.root ∧ bundle.find? bundle.root = none ∨
        problem = .overflow ∧ ∃ span, bundle.Takes options span ∧ ¬span.IsWord) ∧
    (bundle.isRoomy = true → bundle.generate options ≠ .error .overflow) := by
  constructor
  · cases generated : bundle.generate options with
    | error problem =>
      cases located : bundle.find? bundle.root with
      | none =>
        cases (generate_missing located options).symm.trans generated
        exact .inl ⟨rfl, rfl⟩
      | some root =>
        rw [generate_located located] at generated
        split at generated
        next => cases generated
        next far =>
          cases generated
          rw [fits_iff, not_forall] at far
          obtain ⟨span, far⟩ := far
          exact .inr ⟨rfl, span, Classical.not_imp.mp far⟩
    | ok program =>
      refine ⟨fits_iff.mp (fits_of_generated generated), ?_, ?_⟩
      · intro entry member
        obtain ⟨visit, listed, piece, writes, remembered, covers⟩ := entry_written generated member
        obtain ⟨original, places, home, written⟩ := writes.places remembered
        rw [written] at covers
        exact ⟨visit, listed, original, places, home, covers⟩
      · intro reference member
        rw [generate_references generated] at member
        obtain ⟨visit, listed, records⟩ := List.mem_filterMap.mp member
        obtain ⟨given, name, rfl, -, named, expanded⟩ := Encounter.reference?_eq_some records
        refine ⟨_, listed, name.toList, .value _ (Directive.value?_eq_some_iff.mp named), rfl, ?_⟩
        rw [expanded, String.ofList_toList]
  · intro roomy overflows
    cases located : bundle.find? bundle.root with
    | none => cases (generate_missing located options).symm.trans overflows
    | some root =>
      rw [generate_located located, if_pos (fits_of_isRoomy roomy options)] at overflows
      cases overflows

theorem parse_of_tokens {text : String}
    (read : ((Json.tokens? text.toList).bind Json.ofTokens?).bind Bundle.ofJson? = some bundle) :
    Bundle.parse text = .ok bundle := by
  rw [parse, Json.read?, read]

def farText : String :=
  "[\"a\",[[\"a\",\"abcdefg\",[[\"directive\",\"import\",[0,0],[[\"namespace\",\" System\"," ++
    "[18446744073709551615,18446744073709551615]]],[0,0]]," ++
    "[\"text\",\"a\\nb\",[18446744073709551615,18446744073709551615]]]]]]"

def farRoot : Template where
  source := ⟨"a"⟩
  text := "abcdefg"
  nodes := [.directive Walk.farImport, .text ⟨"a\nb", ⟨18446744073709551615, 18446744073709551615⟩⟩]

def far : Bundle := ⟨⟨"a"⟩, [farRoot], .empty⟩

private theorem far_encounters : far.encounters {} =
    [.directive ⟨"a"⟩ Walk.farImport, .run ⟨"a"⟩ [⟨"a\nb", ⟨18446744073709551615, 18446744073709551615⟩⟩]] := by
  have located : far.find? far.root = some farRoot := rfl
  rw [encounters, located]
  dsimp only [Session.encountersOf, farRoot]
  rw [Session.encounters, Session.encounters, Session.encounters]
  rfl

theorem far_overflows : far.fits {} = false := by
  rw [fits_encounters, far_encounters]
  decide

theorem far_parse : Bundle.parse farText = .ok far := by
  apply parse_of_tokens
  unfold farText
  rw [String.toList_append, String.toList_append, String.toList_ofList, String.toList_ofList, String.toList_ofList]
  decide +kernel

theorem far_generate : far.generate {} = .error .overflow := by
  have located : far.find? far.root = some farRoot := rfl
  rw [generate_located located, far_overflows]
  rfl

/-- The bundle is read, but some of its places have no offsets, and there is no program. -/
theorem far_spans_overflow : Bundle.parse farText = .ok far ∧
    (¬∀ span, far.Takes {} span → span.IsWord) ∧ far.generate {} = .error .overflow := by
  refine ⟨far_parse, ?_, far_generate⟩
  rw [← fits_iff, far_overflows]
  exact Bool.false_ne_true

end Bundle

end TextTemplate
