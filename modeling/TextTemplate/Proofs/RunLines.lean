import TextTemplate.Proofs.CountedLines
import TextTemplate.Proofs.CutTexts
import TextTemplate.Proofs.LocatedReports
import TextTemplate.Proofs.RecordedPieces

/-! Lines of literal runs. In a template that was built the texts of a run touch, so a run is one stretch
of the template, cut into lines. Each line is a statement and each statement a line. So the projections of
a run advance in the program as the lines that they come from do in the template. -/

namespace TextTemplate
open Text

private theorem Text.exists_line {text : List Char} (nonempty : text ≠ []) :
    ∃ line rest, text = line ++ rest ∧ lineRuns text = line :: lineRuns rest ∧ line ≠ [] ∧
      '\n' ∉ line.dropLast ∧ (rest ≠ [] → newlines line = 1) := by
  fun_induction lineRuns text with
  | case1 => exact absurd rfl nonempty
  | case2 rest ih => exact ⟨['\n'], rest, rfl, rfl, List.cons_ne_nil _ _, List.not_mem_nil, fun _ => rfl⟩
  | case3 c rest plain empty ih =>
    have last := flatten_lineRuns rest
    rw [empty, List.flatten_nil] at last
    subst last
    exact ⟨[c], [], rfl, rfl, List.cons_ne_nil _ _, List.not_mem_nil, fun more => absurd rfl more⟩
  | case4 c rest plain line more split ih =>
    have unfinished : rest ≠ [] := by
      rintro rfl
      cases split
    obtain ⟨first, later, rfl, same, begun, single, counted⟩ := ih unfinished
    obtain ⟨rfl, rfl⟩ := List.cons.inj (split.symm.trans same)
    refine ⟨c :: line, later, rfl, rfl, List.cons_ne_nil _ _, ?_, fun more => ?_⟩
    · rw [List.dropLast_cons_of_ne_nil begun]
      exact List.not_mem_cons_of_ne_of_not_mem (Ne.symm plain) single
    · exact (List.count_cons_of_ne plain).trans (counted more)

/-- The entry comes from a line of the segment, and so many lines behind `base` as there are in front of
that in the segment. -/
def Projection.StandsFor (entry : Projection) (segment : Segment) (base : Nat) : Prop :=
  ∃ before line after, segment.text.toList = before ++ (line ++ after) ∧ '\n' ∉ line.dropLast ∧
    entry.origin.span = segment.span.narrow (width before) (width before + width line) ∧
    entry.line = base + newlines before

private theorem Segment.writesFrom_standsFor {source : SourceId} {segment : Segment} {base : Nat}
    (lines : List (List Char)) {before rest : List Char} (split : segment.text.toList = before ++ rest)
    (runs : lineRuns rest = lines) (position : Nat) :
    ∀ entry ∈ projectionsFrom position (base + newlines before)
        (writesFrom source segment.span (width before) lines), entry.StandsFor segment base := by
  induction lines generalizing before rest position with
  | nil => exact List.forall_mem_nil _
  | cons line more ih =>
    have nonempty : rest ≠ [] := by
      rintro rfl
      cases runs
    obtain ⟨first, later, rfl, same, -, single, counted⟩ := exists_line nonempty
    obtain ⟨rfl, rfl⟩ := List.cons.inj (same.symm.trans runs)
    have cut : writesFrom source segment.span (width before) (first :: lineRuns later) =
        writesFrom source segment.span (width before) [first] ++
          writesFrom source segment.span (width before + width first) (lineRuns later) := rfl
    rw [cut, projectionsFrom_append, newlines_writesFrom]
    intro entry member
    rcases List.mem_append.mp member with here | behind
    · refine ⟨before, first, later, split, single, ?_⟩
      have opening : newlines writeOpening.toList = 0 := by decide
      have plain (text : String) : (Piece.plain text).recorded? = none := rfl
      simp only [writesFrom, projectionsFrom, plain, Piece.recorded?_mapped, Option.map_none, Option.toList_none,
        List.nil_append, List.append_nil, Option.mem_toList, Option.map_eq_some_iff] at here
      obtain ⟨origin, remembered, rfl⟩ := here
      cases Piece.eq_of_mapped remembered
      exact ⟨rfl, congrArg (base + newlines before + ·) opening⟩
    · by_cases last : later = []
      · subst last
        cases behind
      · have next : base + newlines before + [first].length = base + newlines (before ++ first) := by
          rw [newlines, newlines, List.count_append, ← newlines, ← newlines, counted last]
          rfl
        rw [next, ← width_append] at behind
        exact ih (by rw [split, List.append_assoc]) rfl _ entry behind

namespace Projection.StandsFor
variable {template : Template} {segment : Segment} {base : Nat} {first second : Projection}

private theorem between (early : first.StandsFor segment base) (late : second.StandsFor segment base)
    (covers : segment.span.Covers template.text.toList segment.text.toList)
    (order : first.origin.span.start ≤ second.origin.span.start) :
    ∃ between, template.slice? ⟨first.origin.span.start, second.origin.span.start⟩ = some between ∧
      second.line = first.line + newlines between.toList := by
  obtain ⟨before, line, after, split, -, span, start⟩ := early
  obtain ⟨before', line', after', split', -, span', start'⟩ := late
  have reached : first.origin.span.start = segment.span.start + width before := by rw [span, Span.narrow]
  have reached' : second.origin.span.start = segment.span.start + width before' := by rw [span', Span.narrow]
  obtain ⟨gap, rfl, rest⟩ := prefix_of_width_le (split.symm.trans split') (by omega)
  rw [split, rest] at covers
  have gap_covers := covers.narrow
  rw [Span.narrow, ← width_append] at gap_covers
  refine ⟨String.ofList gap, ?_, ?_⟩
  · rw [span, span']
    exact Span.slice?_of_covers gap_covers
  · rw [start, start', String.toList_ofList, newlines, List.count_append]
    exact (Nat.add_assoc _ _ _).symm

private theorem single (stands : first.StandsFor segment base)
    (covers : segment.span.Covers template.text.toList segment.text.toList) :
    ∃ line, template.slice? first.origin.span = some line ∧ '\n' ∉ line.toList.dropLast := by
  obtain ⟨before, line, after, split, single, span, -⟩ := stands
  rw [split] at covers
  refine ⟨String.ofList line, ?_, by rwa [String.toList_ofList]⟩
  rw [span]
  exact Span.slice?_of_covers covers.narrow

end Projection.StandsFor

namespace BuildStep

private theorem consecutive_of_prefix {texts : List LiteralText} {steps : List BuildStep} {start : Nat}
    {back : List Node}
    (own : nodesFrom start steps = texts.map Node.text ++ back) :
    texts = LiteralText.consecutive start (texts.map LiteralText.content) := by
  induction texts generalizing steps start with
  | nil => rfl
  | cons literal rest ih =>
    cases steps with
    | nil => cases own
    | cons step more =>
      obtain ⟨here, later⟩ := List.cons.inj own
      cases step with
      | text content =>
        cases here
        exact congrArg (_ :: ·) (ih later)
      | directive name attributes => cases here
      | inclusion file => cases here
      | code kind body => cases here

private theorem consecutive_of_infix {texts : List LiteralText} {steps : List BuildStep} {start : Nat}
    (own : texts.map Node.text <:+: nodesFrom start steps) :
    ∃ first, texts = LiteralText.consecutive first (texts.map LiteralText.content) := by
  obtain ⟨front, back, split⟩ := own
  induction front generalizing steps start with
  | nil => exact ⟨start, consecutive_of_prefix split.symm⟩
  | cons node rest ih =>
    cases steps with
    | nil => cases split
    | cons step more => exact ih (List.cons.inj split).2

end BuildStep

/-- A run of a template that was built is one segment; it has none when there is no text in it. -/
theorem LiteralState.consume_built {texts : List LiteralText} {steps : List BuildStep} {start : Nat}
    (own : texts.map Node.text <:+: BuildStep.nodesFrom start steps) :
    ∃ joined : Option Segment, (texts.foldl consume .atStart).segments = joined.toList := by
  obtain ⟨first, consecutive⟩ := BuildStep.consecutive_of_infix own
  rw [consecutive, consume_consecutive, consume_segments]
  split
  · exact ⟨none, rfl⟩
  · exact ⟨some _, rfl⟩

/-- The texts are a stretch of the template, and the entries are on lines as far apart as the places of the
template that they come from. None comes from more than a line. -/
structure Template.Tracks (template : Template) (texts : List LiteralText) (group : List Projection) : Prop where
  stretch : texts.map Node.text <:+: template.nodes
  advance : ∀ first ∈ group, ∀ second ∈ group, first.origin.span.start ≤ second.origin.span.start →
    ∃ between, template.slice? ⟨first.origin.span.start, second.origin.span.start⟩ = some between ∧
      second.line = first.line + newlines between.toList
  single : ∀ entry ∈ group, ∃ line, template.slice? entry.origin.span = some line ∧ '\n' ∉ line.toList.dropLast

private theorem Template.tracks_run {template : Template} {steps : List BuildStep}
    (built : template = .build template.source steps)
    {texts : List LiteralText} (stretch : texts.map Node.text <:+: template.nodes) (source : SourceId)
    (position line : Nat) :
    template.Tracks texts (projectionsFrom position line (Emission.ofTexts source texts).pieces) := by
  have faithful : template.Faithful := built ▸ build_faithful template.source steps
  have sound := Segment.Sound.consumeAll faithful texts
    (fun literal member => stretch.subset (List.mem_map_of_mem member)) .atStart (List.forall_mem_nil _)
  have nodes : template.nodes = BuildStep.nodesFrom 0 steps := congrArg Template.nodes built
  have pieces : (Emission.ofTexts source texts).pieces =
      (texts.foldl LiteralState.consume .atStart).segments.flatMap (Segment.writes source) := rfl
  obtain ⟨joined, segments⟩ := LiteralState.consume_built (nodes ▸ stretch)
  rw [segments] at sound pieces
  rw [pieces]
  cases joined with
  | none => exact ⟨stretch, List.forall_mem_nil _, List.forall_mem_nil _⟩
  | some segment =>
    have covers := (sound segment (List.mem_singleton_self _)).covers
    have stands : ∀ entry ∈ projectionsFrom position line ([segment].flatMap (Segment.writes source)),
        entry.StandsFor segment line := by
      rw [List.flatMap_singleton]
      exact Segment.writesFrom_standsFor segment.lines (List.nil_append _).symm rfl position
    refine ⟨stretch, fun early here late there => ?_, fun entry member => ?_⟩
    · exact (stands early here).between (stands late there) covers
    · exact (stands entry member).single covers

private theorem kind_of_mem_projectionsFrom {pieces : List Piece} {kind : OriginKind}
    (same : ∀ piece ∈ pieces, ∀ origin ∈ piece.recorded?, origin.kind = kind) {position line : Nat}
    {entry : Projection} (member : entry ∈ projectionsFrom position line pieces) : entry.origin.kind = kind := by
  obtain ⟨piece, listed, recorded⟩ := exists_of_mem_projectionsFrom member
  exact same piece listed _ recorded

theorem Encounter.Supplies.kind {encounter : Encounter} {kind : SectionKind} {pieces : List Piece}
    (supplies : encounter.Supplies kind pieces) :
    ∀ piece ∈ pieces, ∀ origin ∈ piece.recorded?, origin.kind = encounter.originKind :=
  fun piece member _ recorded => (supplies.writes piece member).kind (Piece.recorded?_eq_some recorded).1

private theorem exists_groups {encounters : List Encounter} {parts : List (List Piece)}
    (each : List.Forall₂ (fun encounter part => encounter.Supplies .transformation part) encounters parts)
    (position line : Nat) :
    ∃ groups, ((projectionsFrom position line parts.flatten).filter fun entry => entry.origin.kind = .text) =
        groups.flatten ∧
      List.Forall₂ (fun (run : SourceId × List LiteralText) group => ∃ position line,
          group = projectionsFrom position line (Emission.ofTexts run.1 run.2).pieces)
        (encounters.filterMap Encounter.run?) groups := by
  induction each generalizing position line with
  | nil => exact ⟨[], rfl, .nil⟩
  | @cons encounter part encounters parts supplies _ ih =>
    rw [List.flatten_cons, projectionsFrom_append, List.filter_append, List.filterMap_cons]
    obtain ⟨groups, later, tracked⟩ := ih (position + (renderedText part).utf8ByteSize)
      (line + newlines (renderedText part).toList)
    have kind := supplies.kind
    cases run : encounter.run? with
    | none =>
      rw [Encounter.originKind, run] at kind
      refine ⟨groups, ?_, tracked⟩
      rw [later, List.filter_eq_nil_iff.mpr, List.nil_append]
      intro entry member text
      cases (kind_of_mem_projectionsFrom kind member).symm.trans (of_decide_eq_true text)
    | some texts =>
      rw [Encounter.originKind, run] at kind
      refine ⟨projectionsFrom position line part :: groups, ?_, .cons ⟨position, line, ?_⟩ tracked⟩
      · rw [later, List.filter_eq_self.mpr, List.flatten_cons]
        exact fun entry member => decide_eq_true (kind_of_mem_projectionsFrom kind member)
      · rw [supplies.run texts run, if_pos rfl]

private theorem Walk.gatherAll_code (macros : Macros) (encounters : List Encounter) (root : SourceId)
    {kind : SectionKind}
    (other : kind ≠ .transformation) : ∀ piece ∈
      ((encounters.foldl (gather macros) (start root)).current.part kind).pieces,
        ∀ origin ∈ piece.recorded?, origin.kind = .code := by
  obtain ⟨parts, gathered, each⟩ := gatherAll_supplies macros encounters (start root) kind
  have fresh : ((start root).current.part kind).pieces = [] := by cases kind <;> rfl
  rw [gathered, fresh, List.nil_append]
  intro piece member origin recorded
  obtain ⟨part, listed, own⟩ := List.mem_flatten.mp member
  obtain ⟨encounter, -, supplies⟩ := exists_related each listed
  have source := supplies.kind piece own origin recorded
  cases run : encounter.run? with
  | none => rwa [Encounter.originKind, run] at source
  | some texts =>
    rw [supplies.run texts run, if_neg other] at own
    cases own

namespace Bundle
variable {bundle : Bundle} {options : Options} {program : Program}

/-- The projections of text in a program are those of its runs, one run behind the other. -/
theorem text_groups (generated : bundle.generate options = .ok program) :
    ∃ groups, (program.table.entries.toList.filter fun entry => entry.origin.kind = .text) = groups.flatten ∧
      List.Forall₂ (fun (run : SourceId × List LiteralText) group => ∃ position line,
          group = projectionsFrom position line (Emission.ofTexts run.1 run.2).pieces)
        ((bundle.encounters options).filterMap Encounter.run?) groups := by
  cases program_encounters generated
  obtain ⟨parts, gathered, each⟩ := Walk.gatherAll_supplies (options.macros.withDefaults bundle.macros)
    (bundle.encounters options) (Walk.start bundle.root) .transformation
  have code (kind : SectionKind) (other : kind ≠ .transformation) :=
    Walk.gatherAll_code (options.macros.withDefaults bundle.macros) (bundle.encounters options) bundle.root other
  generalize (bundle.encounters options).foldl _ _ = walk at gathered code ⊢
  obtain ⟨front, back, entries, around⟩ := Program.assemble_around
    ⟨walk.current, walk.problems, walk.references, walk.outputExtension?, walk.checks⟩
    { options with macros := options.macros.withDefaults bundle.macros }
  have apart {pieces : List Piece} (outside : ∀ piece ∈ pieces, piece ∈ front ++ back) (position line : Nat) :
      ((projectionsFrom position line pieces).filter fun entry => entry.origin.kind = .text) = [] := by
    refine List.filter_eq_nil_iff.mpr fun entry member text => ?_
    obtain ⟨piece, listed, recorded⟩ := exists_of_mem_projectionsFrom member
    obtain ⟨kind, other, own⟩ := around piece (outside piece listed) (Option.isSome_of_eq_some recorded)
    cases (code kind other piece own _ recorded).symm.trans (of_decide_eq_true text)
  obtain ⟨groups, texts, tracked⟩ := exists_groups each (renderedText front).utf8ByteSize
    (newlines (renderedText front).toList)
  refine ⟨groups, ?_, tracked⟩
  have body : walk.current.transformation.pieces = parts.flatten := gathered
  rw [entries, body, projectionsFrom_append, projectionsFrom_append, List.filter_append, List.filter_append,
    apart fun _ => List.mem_append_left back, apart fun _ => List.mem_append_right front, List.nil_append,
    List.append_nil, Nat.zero_add, Nat.zero_add, texts]

/-- In a program of a bundle whose templates were built, the projections of text are those of the runs, run
by run: one projection for each line of a run, in order. Inside of a run the program advances by as many
lines as the template does, and each projection covers no more than one line of the template, with the
newline behind it if there is one. -/
theorem run_lines_tracked (built : bundle.IsBuilt) (generated : bundle.generate options = .ok program) :
    ∃ groups, (program.table.entries.toList.filter fun entry => entry.origin.kind = .text) = groups.flatten ∧
      List.Forall₂ (fun (run : SourceId × List LiteralText) group =>
          group.map Projection.origin = (Emission.ofTexts run.1 run.2).pieces.filterMap Piece.origin? ∧
          ∃ template, bundle.find? run.1 = some template ∧ template.Tracks run.2 group)
        ((bundle.encounters options).filterMap Encounter.run?) groups := by
  obtain ⟨groups, texts, each⟩ := text_groups generated
  refine ⟨groups, texts, List.forall₂_iff_zip.mpr ⟨each.length_eq, fun {run group} paired => ?_⟩⟩
  obtain ⟨position, line, rfl⟩ := List.forall₂_zip each paired
  obtain ⟨visit, listed, here⟩ := List.mem_filterMap.mp (List.of_mem_zip paired).1
  cases visit with
  | run source texts =>
    cases here
    obtain ⟨template, found, stretch⟩ := encounters_excerpt listed
    have known := List.mem_of_find?_eq_some found
    obtain ⟨steps, written⟩ := built template known
    refine ⟨?_, template, found, template.tracks_run written stretch source _ _⟩
    rw [origins_projectionsFrom]
    refine List.filterMap_congr fun piece own => ?_
    have writes : (Encounter.run source texts).Writes piece := own
    exact writes.recorded
  | directive source given => cases here
  | code source depth fragment => cases here
  | refused source inclusion complaint => cases here
  | expanded source inclusion target => cases here

private theorem wholeTexts_runs : (wholeTexts.encounters {}).filterMap Encounter.run? =
    [(⟨"a"⟩, [⟨"x\r\ny", ⟨0, 4⟩⟩]), (⟨"b"⟩, [⟨"\"é", ⟨0, 3⟩⟩, ⟨"\n日", ⟨3, 7⟩⟩]),
      (⟨"b"⟩, [⟨"\"é", ⟨0, 3⟩⟩, ⟨"\n日", ⟨3, 7⟩⟩])] := by
  have located : wholeTexts.find? wholeTexts.root = some twoLines := by decide
  have enters (inclusion : Inclusion) (named : inclusion.file = "b") :
      (wholeTexts.session {}).expansion ⟨[twoLines.source]⟩ twoLines.source inclusion =
        .expand twoTexts ⟨[⟨"b"⟩, ⟨"a"⟩]⟩ := by
    refine session_expand ?_ (by decide) rfl
    rw [target?, named]
    decide +kernel
  rw [encounters, located]
  dsimp only [Session.encountersOf]
  rw [twoLines_nodes, Session.encounters, Session.encounters_expand _ _ _ (enters _ rfl),
    Session.encounters_expand _ _ _ (enters _ rfl), twoTexts_nodes]
  simp only [Session.encounters, Encounter.ofHeld]
  rfl

theorem run_lines_tracked_whole : ∃ program first second third, wholeTexts.generate {} = .ok program ∧
    (program.table.entries.toList.filter fun entry => entry.origin.kind = .text) = first ++ (second ++ third) ∧
    first.map Projection.origin = [⟨⟨"a"⟩, ⟨0, 3⟩, .text⟩, ⟨⟨"a"⟩, ⟨3, 4⟩, .text⟩] ∧
    twoLines.Tracks [⟨"x\r\ny", ⟨0, 4⟩⟩] first ∧
    second.map Projection.origin = [⟨⟨"b"⟩, ⟨0, 4⟩, .text⟩, ⟨⟨"b"⟩, ⟨4, 7⟩, .text⟩] ∧
    twoTexts.Tracks [⟨"\"é", ⟨0, 3⟩⟩, ⟨"\n日", ⟨3, 7⟩⟩] second ∧
    third.map Projection.origin = second.map Projection.origin := by
  have located : wholeTexts.find? wholeTexts.root = some twoLines := by decide
  have generated := generate_of_root located (by decide) {}
  obtain ⟨groups, texts, each⟩ := run_lines_tracked wholeTexts_built generated
  rw [wholeTexts_runs] at each
  obtain _ | ⟨⟨origins, _, home, tracks⟩, _ | ⟨⟨others, _, target, follows⟩, _ | ⟨⟨again, -⟩, _ | _⟩⟩⟩ := each
  cases home.symm.trans located
  cases target.symm.trans (show wholeTexts.find? ⟨"b"⟩ = some twoTexts by decide)
  rw [List.flatten_cons, List.flatten_cons, List.flatten_singleton] at texts
  refine ⟨_, _, _, _, generated, texts, ?_, tracks, ?_, follows, again.trans others.symm⟩
  · rw [origins]
    decide
  · rw [others]
    decide

end Bundle

end TextTemplate
