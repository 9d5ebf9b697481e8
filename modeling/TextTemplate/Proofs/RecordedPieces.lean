import TextTemplate.Proofs.TracedCode

/-! What the table of a program lists: every mapped piece of the five sections, once and in their
order, by where it stands in the code. No span has to fit its template for that. What the options
add to a program is fixed text, so the list does not depend on it. -/

namespace TextTemplate

theorem Piece.recorded?_mapped (text : String) (origin : Origin) :
    (Piece.mapped text origin).recorded? = (Piece.mapped text origin).origin? := by
  unfold mapped
  cases empty : text.isEmpty || origin.span.isEmpty with
  | true => rfl
  | false =>
    rw [if_neg Bool.false_ne_true, recorded?, Option.filter_some, empty]
    rfl

private theorem Piece.recorded?_unmapped {piece : Piece} (plain : piece.origin? = none) :
    piece.recorded? = piece.origin? := by
  rw [recorded?, plain]
  rfl

/-- What the origins of an encounter say of its text: a run is escaped, everything else copied. -/
def Encounter.originKind (encounter : Encounter) : OriginKind :=
  if encounter.run?.isSome then .text else .code

theorem Encounter.Writes.plain_or_mapped {encounter : Encounter} {piece : Piece} (writes : encounter.Writes piece) :
    piece.origin? = none ∨ ∃ text span, piece = .mapped text ⟨encounter.source, span, encounter.originKind⟩ := by
  cases encounter with
  | run source texts =>
    obtain ⟨segment, -, written⟩ := List.mem_flatMap.mp writes
    exact (Segment.mem_writesFrom written).imp_right fun ⟨_, _, _, _, mapped⟩ => ⟨_, _, mapped⟩
  | directive source given => exact writes.imp_right fun ⟨_, _, _, mapped⟩ => ⟨_, _, mapped⟩
  | code source depth fragment => exact writes.imp_right fun mapped => ⟨_, _, mapped⟩
  | refused source inclusion complaint => cases writes
  | expanded source inclusion target => cases writes

/-- Whatever remembers an origin has text and came from somewhere, so it is recorded. -/
theorem Encounter.Writes.recorded {encounter : Encounter} {piece : Piece} (writes : encounter.Writes piece) :
    piece.recorded? = piece.origin? := by
  rcases writes.plain_or_mapped with plain | ⟨text, span, rfl⟩
  · exact Piece.recorded?_unmapped plain
  · exact Piece.recorded?_mapped _ _

theorem Encounter.Writes.kind {encounter : Encounter} {piece : Piece} (writes : encounter.Writes piece)
    {origin : Origin} (remembered : piece.origin? = some origin) : origin.kind = encounter.originKind := by
  rcases writes.plain_or_mapped with plain | ⟨text, span, rfl⟩
  · cases plain.symm.trans remembered
  · rw [← Piece.eq_of_mapped remembered]

private theorem Session.gathered_flagged (session : Session) (root : Template) :
    (session.gathered root).frame.Flagged :=
  Walk.gatherAll_preserves (fun frame _ _ => (Frame.Adds.appendEmission _).flagged frame)
    (fun frame effect => effect.adds.flagged frame) session.macros _ _ (Frame.flagged_new root.source)

def Frame.mappedPieces (frame : Frame) : List Piece :=
  [SectionKind.imports, .baseClass, .parameters, .transformation, .feature].flatMap fun kind =>
    (frame.part kind).pieces.filter fun piece => piece.origin?.isSome

namespace Program

private theorem recorded_laidOut {frame : Frame} (flagged : frame.Flagged)
    (recorded : ∀ kind, ∀ piece ∈ (frame.part kind).pieces, piece.recorded? = piece.origin?) :
    ((laidOut frame).filter fun piece => piece.recorded?.isSome) = frame.mappedPieces := by
  have section_ (kind : SectionKind) :
      ((frame.part kind).pieces.filter fun piece => piece.recorded?.isSome) =
        (frame.part kind).pieces.filter fun piece => piece.origin?.isSome :=
    List.filter_congr fun piece member => by rw [recorded kind piece member]
  have based : basePieces frame = frame.baseClass.pieces := by
    unfold basePieces
    split
    next => rfl
    next absent => rw [flagged (Bool.eq_false_iff.mpr absent)]
  rw [laidOut, based, Frame.mappedPieces]
  simp only [List.filter_append, List.flatMap_cons, List.flatMap_nil, List.append_nil, ← section_,
    List.append_assoc]
  rfl

private theorem origins_of_records {code : List Char} {entries : List Projection} {pieces : List Piece}
    (records : List.Forall₂ (Projection.Records code) entries pieces) :
    entries.map Projection.origin = pieces.filterMap Piece.recorded? := by
  induction records with
  | nil => rfl
  | cons first _ ih => rw [List.map_cons, List.filterMap_cons, first.recorded, ih]

private theorem gathered_records (session : Session) (root : Template) (options : Options) :
    List.Forall₂ (Projection.Records (assemble (session.gathered root) options).code.toList)
      (assemble (session.gathered root) options).table.entries.toList
      (session.gathered root).frame.mappedPieces := by
  rw [← recorded_laidOut (session.gathered_flagged root)]
  · exact assemble_records (session.gathered root) options
  · intro kind piece member
    obtain ⟨encounter, -, writes⟩ := Session.exists_writes member
    exact writes.recorded

end Program

namespace Bundle
variable {bundle : Bundle} {options : Options} {program : Program}

theorem entry_records (generated : bundle.generate options = .ok program) {entry : Projection}
    (member : entry ∈ program.table.entries) : ∃ piece, entry.Records program.code.toList piece := by
  obtain ⟨root, -, rfl⟩ := generate_gathered generated
  obtain ⟨piece, -, records⟩ := Program.exists_recorded member
  exact ⟨piece, records⟩

/-- Whatever the spans, the entries of a generated table follow each other in the code. Each covers
whole characters of the code and comes from a range that is not empty, and its line is the number
of newlines in the code in front of it. -/
theorem generate_table_in_order (generated : bundle.generate options = .ok program) :
    (program.table.entries.toList.Pairwise fun first second =>
      first.generated.start < second.generated.start ∧
        first.generated.stop ≤ second.generated.start) ∧
    ∀ entry ∈ program.table.entries,
      entry.generated.start < entry.generated.stop ∧
      entry.origin.span.start < entry.origin.span.stop ∧
      (entry.generated.slice? program.code).isSome = true ∧
      ∃ before, Span.slice? ⟨0, entry.generated.start⟩ program.code = some before ∧
        entry.line = Text.newlines before.toList := by
  have nonempty : ∀ entry ∈ program.table.entries, entry.generated.start < entry.generated.stop := by
    intro entry member
    obtain ⟨piece, records⟩ := entry_records generated member
    have long : 0 < Text.width piece.text.toList :=
      Text.width_pos (by simpa using (Piece.recorded?_eq_some records.recorded).2.1)
    have stop := records.covers.stop_eq
    omega
  constructor
  · refine (table_ordered generated).apart.imp_of_mem fun {first second} member _ apart => ⟨?_, apart⟩
    exact Nat.lt_of_lt_of_le (nonempty first (Array.mem_toList_iff.mp member)) apart
  · intro entry member
    obtain ⟨piece, records⟩ := entry_records generated member
    obtain ⟨before, after, split, start, line⟩ := records.line
    have front : Span.Covers ⟨0, entry.generated.start⟩ program.code.toList before :=
      ⟨[], after, split, rfl, by rw [start]; exact (Nat.zero_add _).symm⟩
    refine ⟨nonempty entry member, ?_, ?_, String.ofList before, Span.slice?_of_covers front, ?_⟩
    · simpa [Span.isEmpty] using (Piece.recorded?_eq_some records.recorded).2.2
    · rw [Span.slice?_of_covers records.covers]
      rfl
    · rw [line, String.toList_ofList]

def crookedRoot : Template where
  source := ⟨"r"⟩
  text := "abc"
  nodes := [
    .directive ⟨"template", ⟨0, 0⟩, [⟨"inherits", " B ", ⟨7, 2⟩⟩], ⟨0, 0⟩⟩,
    .text ⟨"é\"\n", ⟨90, 3⟩⟩,
    .code ⟨.statement, "x\ny", ⟨9, 4⟩, ⟨0, 0⟩⟩,
    .code ⟨.feature, "日\n", ⟨70, 80⟩, ⟨0, 0⟩⟩,
    .code ⟨.expression, "n", ⟨5, 6⟩, ⟨0, 0⟩⟩]

def crooked : Bundle := ⟨⟨"r"⟩, [crookedRoot], .empty⟩

def crookedOptions : Options := { variant := .executable, givenNamespace? := some "N" }

theorem crooked_generate : ∃ program, crooked.generate crookedOptions = .ok program ∧
    program.table.entries.toList.map Projection.origin =
      [⟨⟨"r"⟩, ⟨8, 9⟩, .code⟩, ⟨⟨"r"⟩, ⟨90, 94⟩, .text⟩, ⟨⟨"r"⟩, ⟨70, 80⟩, .code⟩,
        ⟨⟨"r"⟩, ⟨5, 6⟩, .code⟩] := by
  refine ⟨_, generate_of_root (show crooked.find? crooked.root = some crookedRoot by decide)
    (by decide) _, ?_⟩
  simp only [Session.gathered, Session.encountersOf, crookedRoot, Session.encounters]
  decide

theorem generate_table_in_order_crooked : ∃ program, crooked.generate crookedOptions = .ok program ∧
    program.table.size = 4 ∧
    (program.table.entries.toList.Pairwise fun first second =>
      first.generated.start < second.generated.start ∧
        first.generated.stop ≤ second.generated.start) ∧
    ∀ entry ∈ program.table.entries,
      entry.generated.start < entry.generated.stop ∧
      entry.origin.span.start < entry.origin.span.stop ∧
      (entry.generated.slice? program.code).isSome = true ∧
      ∃ before, Span.slice? ⟨0, entry.generated.start⟩ program.code = some before ∧
        entry.line = Text.newlines before.toList := by
  obtain ⟨program, generated, origins⟩ := crooked_generate
  refine ⟨program, generated, ?_, generate_table_in_order generated⟩
  rw [ProjectionTable.size, ← Array.length_toList, ← List.length_map, origins]
  rfl

/-- The table of a program lists the mapped pieces of the collected sections in their order, each
with its origin, and its range of the code is the text of the piece. So the projections, apart from
where they came to rest, and all reports are the same for every variant, namespace and class name. -/
theorem generate_table_complete (generated : bundle.generate options = .ok program) :
    let macros := options.macros.withDefaults bundle.macros
    ∃ root collected, bundle.rootTemplate = .ok root ∧
      Session.collect ⟨bundle.includes, macros, neverCancelled⟩ root = .ok collected ∧
      List.Forall₂ (fun entry piece => piece.origin? = some entry.origin ∧
          entry.generated.slice? program.code = some piece.text)
        program.table.entries.toList collected.frame.mappedPieces ∧
      ∀ variant namespace? className?, ∃ other : Program,
        bundle.generate { options with
          variant, givenNamespace? := namespace?, givenClassName? := className? } = .ok other ∧
        other.table.entries.toList.map Projection.origin =
          program.table.entries.toList.map Projection.origin ∧
        other.problems = program.problems ∧ other.references = program.references ∧
        other.outputExtension? = program.outputExtension? := by
  intro macros
  have room := fits_of_generated generated
  obtain ⟨root, located, rfl⟩ := generate_gathered generated
  have records := Program.gathered_records ⟨bundle.includes, macros, neverCancelled⟩ root
  refine ⟨root, _, ?_, (collect_session located options).trans (if_pos room), ?_,
    fun variant namespace? className? => ?_⟩
  · rw [rootTemplate, located]
  · refine (records _).imp fun entry piece recorded => ⟨?_, ?_⟩
    · exact (Piece.recorded?_eq_some recorded.recorded).1
    · rw [Span.slice?_of_covers recorded.covers, String.ofList_toList]
  · refine ⟨_, (generate_located located _).trans (if_pos room), ?_, rfl, rfl, rfl⟩
    exact (Program.origins_of_records (records _)).trans (Program.origins_of_records (records _)).symm

theorem generate_table_complete_crooked : ∃ program other,
    crooked.generate crookedOptions = .ok program ∧
    crooked.generate { crookedOptions with
      variant := .interactive, givenNamespace? := none, givenClassName? := some "C" } = .ok other ∧
    other.table.entries.toList.map Projection.origin =
      program.table.entries.toList.map Projection.origin ∧
    program.table.entries.toList.map Projection.origin =
      [⟨⟨"r"⟩, ⟨8, 9⟩, .code⟩, ⟨⟨"r"⟩, ⟨90, 94⟩, .text⟩, ⟨⟨"r"⟩, ⟨70, 80⟩, .code⟩,
        ⟨⟨"r"⟩, ⟨5, 6⟩, .code⟩] ∧
    ∃ collected : Collected,
      List.Forall₂ (fun entry piece => piece.origin? = some entry.origin ∧
          entry.generated.slice? program.code = some piece.text)
        program.table.entries.toList collected.frame.mappedPieces := by
  obtain ⟨program, generated, origins⟩ := crooked_generate
  obtain ⟨root, collected, -, -, listed, same⟩ := generate_table_complete generated
  obtain ⟨other, again, alike, -⟩ := same .interactive none (some "C")
  exact ⟨program, other, generated, again, alike, origins, collected, listed⟩

end Bundle

end TextTemplate
