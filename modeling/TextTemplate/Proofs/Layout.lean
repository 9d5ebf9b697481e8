import Mathlib.Data.List.Forall2
import TextTemplate.Program
import TextTemplate.Proofs.Lookup
import TextTemplate.Proofs.Slices

/-! A program is its pieces one after the other, and its table lists the pieces with an origin by
where they came to rest. Only the sections hold such pieces, so the table is theirs, whatever
fixed text the options put between them. -/

namespace TextTemplate

def Piece.recorded? (piece : Piece) : Option Origin :=
  piece.origin?.filter fun origin => !(piece.text.isEmpty || origin.span.isEmpty)

theorem Piece.recorded?_eq_some {piece : Piece} {origin : Origin} (recorded : piece.recorded? = some origin) :
    piece.origin? = some origin ∧ piece.text ≠ "" ∧ origin.span.isEmpty = false := by
  obtain ⟨remembered, kept⟩ := Option.filter_eq_some_iff.mp recorded
  simp only [Bool.not_eq_true', Bool.or_eq_false_iff] at kept
  refine ⟨remembered, ?_, kept.2⟩
  intro empty
  rw [empty] at kept
  cases kept.1

def projectionsFrom (position line : Nat) : List Piece → List Projection
  | [] => []
  | piece :: rest =>
    let stop := position + piece.text.utf8ByteSize
    (piece.recorded?.map fun origin => ⟨⟨position, stop⟩, origin, line⟩).toList ++
      projectionsFrom stop (line + Text.newlines piece.text.toList) rest

def renderedText (pieces : List Piece) : String := String.join (pieces.map Piece.text)

@[simp] theorem renderedText_nil : renderedText [] = "" := rfl

@[simp] theorem renderedText_cons (piece : Piece) (rest : List Piece) :
    renderedText (piece :: rest) = piece.text ++ renderedText rest := by
  rw [renderedText, List.map_cons, String.join_cons]
  rfl

@[simp] theorem renderedText_append (first second : List Piece) :
    renderedText (first ++ second) = renderedText first ++ renderedText second := by
  rw [renderedText, List.map_append, String.join_append]
  rfl

theorem newlines_append (first second : String) :
    Text.newlines (first ++ second).toList = Text.newlines first.toList + Text.newlines second.toList := by
  rw [String.toList_append, Text.newlines, List.count_append]
  rfl

theorem projectionsFrom_append (position line : Nat) (first second : List Piece) :
    projectionsFrom position line (first ++ second) =
      projectionsFrom position line first ++
        projectionsFrom (position + (renderedText first).utf8ByteSize)
          (line + Text.newlines (renderedText first).toList) second := by
  induction first generalizing position line with
  | nil => rfl
  | cons piece rest ih =>
    rw [List.cons_append, projectionsFrom, ih, projectionsFrom, renderedText_cons, newlines_append,
      String.utf8ByteSize_append, List.append_assoc, Nat.add_assoc, Nat.add_assoc]

/-- The entry stands in `code` for the piece: it has the origin of the piece, covers its text, and
counts the lines in front of it. -/
structure Projection.Records (code : List Char) (entry : Projection) (piece : Piece) : Prop where
  recorded : piece.recorded? = some entry.origin
  covers : entry.generated.Covers code piece.text.toList
  line : ∃ before after, code = before ++ after ∧ entry.generated.start = Text.width before ∧
    entry.line = Text.newlines before

private theorem projectionsFrom_records (front : String) (pieces : List Piece) :
    List.Forall₂ (Projection.Records (front ++ renderedText pieces).toList)
      (projectionsFrom front.utf8ByteSize (Text.newlines front.toList) pieces)
      (pieces.filter fun piece => piece.recorded?.isSome) := by
  induction pieces generalizing front with
  | nil => exact .nil
  | cons piece rest ih =>
    have later := ih (front ++ piece.text)
    rw [String.utf8ByteSize_append, newlines_append, String.append_assoc] at later
    rw [projectionsFrom, renderedText_cons, List.filter_cons]
    cases recorded : piece.recorded? with
    | none => exact later
    | some origin =>
      refine .cons ⟨recorded, ⟨front.toList, (renderedText rest).toList, ?_, ?_, ?_⟩, ?_⟩ later
      · rw [String.toList_append, String.toList_append]
      · exact (Text.width_toList front).symm
      · rw [Text.width_toList, Text.width_toList]
      · exact ⟨front.toList, _, String.toList_append, (Text.width_toList front).symm, rfl⟩

theorem origins_projectionsFrom (position line : Nat) (pieces : List Piece) :
    (projectionsFrom position line pieces).map Projection.origin = pieces.filterMap Piece.recorded? := by
  induction pieces generalizing position line with
  | nil => rfl
  | cons piece rest ih =>
    rw [projectionsFrom, List.map_append, ih, List.filterMap_cons]
    cases piece.recorded? <;> rfl

private theorem projectionsFrom_eq_nil {position line : Nat} {pieces : List Piece}
    (unrecorded : (pieces.filter fun piece => piece.recorded?.isSome) = []) :
    projectionsFrom position line pieces = [] := by
  rw [← List.map_eq_nil_iff, origins_projectionsFrom, List.filterMap_eq_nil_iff]
  intro piece member
  exact Option.not_isSome_iff_eq_none.mp (List.filter_eq_nil_iff.mp unrecorded piece member)

theorem exists_of_mem_projectionsFrom {position line : Nat} {pieces : List Piece} {entry : Projection}
    (member : entry ∈ projectionsFrom position line pieces) :
    ∃ piece ∈ pieces, piece.recorded? = some entry.origin := by
  have listed := List.mem_map_of_mem (f := Projection.origin) member
  rw [origins_projectionsFrom] at listed
  exact List.mem_filterMap.mp listed

theorem le_start_of_mem_projectionsFrom {position line : Nat} {pieces : List Piece} {entry : Projection}
    (member : entry ∈ projectionsFrom position line pieces) : position ≤ entry.generated.start := by
  induction pieces generalizing position line with
  | nil => cases member
  | cons piece rest ih =>
    rcases List.mem_append.mp member with here | later
    · simp only [Option.mem_toList, Option.map_eq_some_iff] at here
      obtain ⟨origin, -, rfl⟩ := here
      exact Nat.le_refl _
    · exact Nat.le_trans (Nat.le_add_right _ _) (ih later)

private theorem projectionsFrom_apart (position line : Nat) (pieces : List Piece) :
    (projectionsFrom position line pieces).Pairwise fun first second =>
      first.generated.stop ≤ second.generated.start := by
  induction pieces generalizing position line with
  | nil => exact .nil
  | cons piece rest ih =>
    refine List.pairwise_append.mpr ⟨?_, ih _ _, fun first early second late => ?_⟩
    · cases piece.recorded? with
      | none => exact .nil
      | some origin => exact List.pairwise_singleton _ _
    · simp only [Option.mem_toList, Option.map_eq_some_iff] at early
      obtain ⟨origin, -, rfl⟩ := early
      exact le_start_of_mem_projectionsFrom late

namespace Draft

/-- Writing the pieces leads from one draft to the other. -/
structure Wrote (before : Draft) (pieces : List Piece) (after : Draft) : Prop where
  code : after.code = before.code ++ renderedText pieces
  line : after.line = before.line + Text.newlines (renderedText pieces).toList
  entries : after.table.entries.toList =
    before.table.entries.toList ++ projectionsFrom before.position before.line pieces

theorem Wrote.nothing (draft : Draft) : Wrote draft [] draft :=
  ⟨String.append_empty.symm, rfl, (List.append_nil _).symm⟩

theorem Wrote.trans {first second third : Draft} {front back : List Piece} (wrote : Wrote first front second)
    (next : Wrote second back third) : Wrote first (front ++ back) third where
  code := by rw [next.code, wrote.code, renderedText_append, String.append_assoc]
  line := by rw [next.line, wrote.line, renderedText_append, newlines_append, Nat.add_assoc]
  entries := by
    have reached : second.position = first.position + (renderedText front).utf8ByteSize := by
      rw [position, position, wrote.code, String.utf8ByteSize_append]
    rw [next.entries, wrote.entries, projectionsFrom_append, reached, wrote.line, List.append_assoc]

theorem Wrote.piece (draft : Draft) (piece : Piece) : Wrote draft [piece] (draft.writePiece piece) := by
  have whole : renderedText [piece] = piece.text := by simp
  have single (recorded : Option Origin) (given : piece.recorded? = recorded) :
      projectionsFrom draft.position draft.line [piece] = (recorded.map fun origin =>
        ⟨⟨draft.position, draft.position + piece.text.utf8ByteSize⟩, origin, draft.line⟩).toList := by
    rw [projectionsFrom, projectionsFrom, List.append_nil, given]
  have unrecorded (given : piece.recorded? = none) : Wrote draft [piece] (draft.write piece.text) := by
    refine ⟨by rw [whole]; rfl, by rw [whole]; rfl, ?_⟩
    rw [single none given]
    exact (List.append_nil _).symm
  unfold writePiece
  cases remembered : piece.origin? with
  | none => exact unrecorded (by rw [Piece.recorded?, remembered]; rfl)
  | some origin =>
    simp only [writeMapped]
    cases empty : piece.text.isEmpty || origin.span.isEmpty with
    | true =>
      rw [if_pos rfl]
      exact unrecorded (by rw [Piece.recorded?, remembered, Option.filter_some, empty]; rfl)
    | false =>
      rw [if_neg Bool.false_ne_true]
      refine ⟨by rw [whole]; rfl, by rw [whole]; rfl, ?_⟩
      rw [single (some origin) (by rw [Piece.recorded?, remembered, Option.filter_some, empty]; rfl)]
      simp [ProjectionTable.record, position, write]

theorem Wrote.pieces (draft : Draft) (pieces : List Piece) : Wrote draft pieces (draft.writePieces pieces) := by
  induction pieces generalizing draft with
  | nil => exact nothing draft
  | cons piece rest ih => exact (Wrote.piece draft piece).trans (ih (draft.writePiece piece))

private theorem Wrote.write {before after : Draft} {pieces : List Piece} (wrote : Wrote before pieces after)
    (text : String) : Wrote before (pieces ++ [.plain text]) (after.write text) :=
  wrote.trans (.piece after (.plain text))

def Lays (before : Draft) (part : List Piece) (after : Draft) : Prop :=
  ∃ pieces, Wrote before pieces after ∧
    (pieces.filter fun piece => piece.recorded?.isSome) = part.filter fun piece => piece.recorded?.isSome

theorem Lays.trans {first second third : Draft} {front back : List Piece} (lays : Lays first front second)
    (next : Lays second back third) : Lays first (front ++ back) third := by
  obtain ⟨pieces, wrote, same⟩ := lays
  obtain ⟨more, continued, alike⟩ := next
  exact ⟨pieces ++ more, wrote.trans continued, by rw [List.filter_append, List.filter_append, same, alike]⟩

theorem Lays.nothing (draft : Draft) : Lays draft [] draft := ⟨[], .nothing draft, rfl⟩

variable {before after : Draft} {part : List Piece}

theorem Lays.write (lays : Lays before part after) (text : String) : Lays before part (after.write text) := by
  rw [← List.append_nil part]
  exact lays.trans ⟨[.plain text], .piece after (.plain text), rfl⟩

theorem Lays.writeSection (lays : Lays before part after) (next : Section) :
    Lays before (part ++ next.pieces) (after.writeSection next) :=
  lays.trans ⟨next.pieces, .pieces after next.pieces, rfl⟩

private theorem Lays.endLineAfter (lays : Lays before part after) (last : Section) :
    Lays before part (after.endLineAfter last) := by
  unfold Draft.endLineAfter
  split
  · exact lays
  · exact lays.write "\n"

end Draft

namespace Program
open Draft

def basePieces (frame : Frame) : List Piece :=
  if frame.hasBaseClass then frame.baseClass.pieces else []

private theorem writeHead_lays (frame : Frame) (options : Options) (draft : Draft) :
    Lays draft (basePieces frame ++ frame.parameters.pieces) (writeHead frame options draft) := by
  unfold writeHead
  apply Lays.write
  apply Lays.write
  apply Lays.writeSection
  apply Lays.write
  apply Lays.write
  unfold basePieces
  split
  · exact ((Lays.nothing draft).write _).writeSection frame.baseClass
  · exact ((Lays.nothing draft).write _).write (fallbackBase options)

/-- A program down to the opening of its transform method. -/
def opened (frame : Frame) (options : Options) : Draft :=
  let wrapped := ({} : Draft).write (match options.namespace? with
    | some name => "namespace " ++ name ++ "\n\x7b\n"
    | none => "")
  let imported := ((wrapped.write "using System;\n").writeSection frame.imports).write "\n"
  writeHead frame options imported

private theorem layout_opened (frame : Frame) (options : Options) : layout frame options =
    ((writeBody frame (opened frame options)).write
      (if needsBaseClass frame options.variant then baseClass options else "")).write
        (if options.namespace?.isSome then "\x7d\n" else "") := rfl

private theorem opened_lays (frame : Frame) (options : Options) :
    Lays {} (frame.imports.pieces ++ (basePieces frame ++ frame.parameters.pieces)) (opened frame options) := by
  unfold opened
  refine Lays.trans ?_ (writeHead_lays frame options _)
  apply Lays.write
  exact (((Lays.nothing {}).write _).write "using System;\n").writeSection frame.imports

theorem layout_closes (frame : Frame) (options : Options) :
    Lays ((opened frame options).writeSection frame.transformation) frame.feature.pieces
      (layout frame options) := by
  rw [layout_opened, writeBody, ← List.nil_append frame.feature.pieces]
  apply Lays.write
  apply Lays.write
  apply Lays.write
  apply Lays.endLineAfter
  apply Lays.writeSection
  apply Lays.write
  exact (Lays.nothing _).endLineAfter frame.transformation

def laidOut (frame : Frame) : List Piece :=
  frame.imports.pieces ++ (basePieces frame ++ frame.parameters.pieces) ++
    (frame.transformation.pieces ++ frame.feature.pieces)

private theorem mem_laidOut {frame : Frame} {piece : Piece} (member : piece ∈ laidOut frame) :
    ∃ kind, piece ∈ (frame.part kind).pieces := by
  simp only [laidOut, basePieces, List.mem_append] at member
  rcases member with (imported | base | parameter) | transformed | feature
  · exact ⟨.imports, imported⟩
  · split at base
    · exact ⟨.baseClass, base⟩
    · cases base
  · exact ⟨.parameters, parameter⟩
  · exact ⟨.transformation, transformed⟩
  · exact ⟨.feature, feature⟩

/-- A program is written piece by piece. The transformation section is written as it is, and what is
recorded around it comes from the other sections. -/
theorem assemble_body (collected : Collected) (options : Options) :
    let frame := collected.frame
    ∃ front back, Draft.Wrote {} front (opened frame options) ∧
      (assemble collected options).code = renderedText (front ++ frame.transformation.pieces ++ back) ∧
      (assemble collected options).table.entries.toList =
        projectionsFrom 0 0 (front ++ frame.transformation.pieces ++ back) ∧
      (front.filter fun piece => piece.recorded?.isSome) =
        (frame.imports.pieces ++ (basePieces frame ++ frame.parameters.pieces)).filter
          (fun piece => piece.recorded?.isSome) ∧
      (back.filter fun piece => piece.recorded?.isSome) =
        frame.feature.pieces.filter fun piece => piece.recorded?.isSome := by
  intro frame
  obtain ⟨front, before, above⟩ := opened_lays frame options
  obtain ⟨back, after, below⟩ := layout_closes frame options
  have wrote := (before.trans (.pieces _ frame.transformation.pieces)).trans after
  exact ⟨front, back, before, wrote.code.trans String.empty_append, wrote.entries, above, below⟩

/-- Nothing is in the frame but imports and the transform method. -/
def IsPlain (frame : Frame) : Prop :=
  frame = { source := frame.source, imports := frame.imports, transformation := frame.transformation,
            transformationLines := frame.transformationLines }

instance (frame : Frame) : Decidable (IsPlain frame) :=
  inferInstanceAs (Decidable (frame = _))

/-- What opens the class and its transform method when all options are left open. -/
private def plainHead : List Piece :=
  [.plain "\n",
   .plain ("    " ++ Code.generatedCodeAttribute ++ "\n" ++ "    public class " ++ Code.defaultClassName ++ " : "),
   .plain Code.runtimeBaseClass, .plain "\n    \x7b\n", .plain "", .plain "",
   .plain ("        public " ++ "override" ++ " string TransformText()\n        \x7b\n")]

private theorem measure_plainHead :
    (renderedText plainHead).utf8ByteSize = 264 ∧ Text.newlines (renderedText plainHead).toList = 6 := by
  have attributed : Code.generatedCodeAttribute.toList = _ := String.toList_ofList
  have named : Code.defaultClassName.toList = _ := String.toList_ofList
  have based : Code.runtimeBaseClass.toList = _ := String.toList_ofList
  rw [← Text.width_toList]
  simp only [plainHead, Piece.plain, renderedText_cons, renderedText_nil, String.toList_append, attributed, named,
    based]
  repeat rw [String.toList_ofList]
  decide +kernel

private theorem opened_plain {frame : Frame} (plain : IsPlain frame) (macros : Macros) :
    Draft.Wrote {} ([.plain "", .plain "using System;\n"] ++ frame.imports.pieces ++ plainHead)
      (opened frame { macros }) := by
  rw [plain]
  have imported := (((Draft.Wrote.nothing {}).write "").write "using System;\n").trans (.pieces _ frame.imports.pieces)
  have classed := ((imported.write "\n").write
    ("    " ++ Code.generatedCodeAttribute ++ "\n" ++ "    public class " ++ Code.defaultClassName ++ " : ")).write
      Code.runtimeBaseClass
  have begun := (((classed.write "\n    \x7b\n").write "").write "").write
    ("        public " ++ "override" ++ " string TransformText()\n        \x7b\n")
  simp only [List.nil_append, List.append_assoc, List.cons_append] at begun
  exact begun

theorem assemble_plain {collected : Collected} (plain : IsPlain collected.frame) (macros : Macros) :
    let imports := collected.frame.imports
    (assemble collected { macros }).table.entries.toList = projectionsFrom 14 1 imports.pieces ++
      projectionsFrom (278 + imports.render.utf8ByteSize) (7 + Text.newlines imports.render.toList)
        collected.frame.transformation.pieces := by
  intro imports
  obtain ⟨back, after, below⟩ := layout_closes collected.frame { macros }
  have wrote := ((opened_plain plain macros).trans (.pieces _ collected.frame.transformation.pieces)).trans after
  have nothing : collected.frame.feature.pieces = [] := by rw [plain]
  rw [nothing] at below
  have front : projectionsFrom 0 0 [.plain "", .plain "using System;\n"] = [] := projectionsFrom_eq_nil rfl
  have head (position line : Nat) : projectionsFrom position line plainHead = [] := projectionsFrom_eq_nil rfl
  have begun : renderedText [.plain "", .plain "using System;\n"] = "using System;\n" := by simp [Piece.plain]
  have measured : "using System;\n".utf8ByteSize = 14 ∧ Text.newlines "using System;\n".toList = 1 := by
    decide
  have position : 0 + (14 + imports.render.utf8ByteSize + 264) = 278 + imports.render.utf8ByteSize := by omega
  have line : 0 + (1 + Text.newlines imports.render.toList + 6) = 7 + Text.newlines imports.render.toList := by omega
  rw [← position, ← line]
  refine wrote.entries.trans ?_
  show [] ++ projectionsFrom 0 0 _ = _
  simp only [projectionsFrom_append, front, head, projectionsFrom_eq_nil below, renderedText_append, begun,
    String.utf8ByteSize_append, newlines_append, measured, measure_plainHead, List.nil_append, List.append_nil]
  rfl

theorem assemble_around (collected : Collected) (options : Options) :
    ∃ front back, (assemble collected options).table.entries.toList =
        projectionsFrom 0 0 (front ++ collected.frame.transformation.pieces ++ back) ∧
      ∀ piece ∈ front ++ back, piece.recorded?.isSome = true →
        ∃ kind, kind ≠ .transformation ∧ piece ∈ (collected.frame.part kind).pieces := by
  obtain ⟨front, back, -, -, entries, above, below⟩ := assemble_body collected options
  refine ⟨front, back, entries, fun piece member recorded => ?_⟩
  have kept : piece ∈ (front ++ back).filter fun piece => piece.recorded?.isSome :=
    List.mem_filter.mpr ⟨member, recorded⟩
  rw [List.filter_append, above, below, ← List.filter_append] at kept
  have laid := (List.mem_filter.mp kept).1
  simp only [basePieces, List.mem_append] at laid
  rcases laid with (imported | base | parameter) | feature
  · exact ⟨.imports, nofun, imported⟩
  · split at base
    · exact ⟨.baseClass, nofun, base⟩
    · cases base
  · exact ⟨.parameters, nofun, parameter⟩
  · exact ⟨.feature, nofun, feature⟩

theorem assemble_pieces (collected : Collected) (options : Options) :
    ∃ pieces, (assemble collected options).code = renderedText pieces ∧
      (assemble collected options).table.entries.toList = projectionsFrom 0 0 pieces ∧
      (pieces.filter fun piece => piece.recorded?.isSome) =
        (laidOut collected.frame).filter fun piece => piece.recorded?.isSome := by
  obtain ⟨front, back, -, code, entries, above, below⟩ := assemble_body collected options
  refine ⟨_, code, entries, ?_⟩
  simp only [List.filter_append, above, below, laidOut, List.append_assoc]

/-- The table records the pieces of the sections in the order they are laid out. -/
theorem assemble_records (collected : Collected) (options : Options) :
    List.Forall₂ (Projection.Records (assemble collected options).code.toList)
      (assemble collected options).table.entries.toList
      ((laidOut collected.frame).filter fun piece => piece.recorded?.isSome) := by
  obtain ⟨pieces, code, entries, same⟩ := assemble_pieces collected options
  have records := projectionsFrom_records "" pieces
  rw [String.empty_append] at records
  rw [code, entries, ← same]
  exact records

theorem exists_recorded {collected : Collected} {options : Options} {entry : Projection}
    (member : entry ∈ (assemble collected options).table.entries) :
    ∃ piece ∈ laidOut collected.frame, entry.Records (assemble collected options).code.toList piece := by
  obtain ⟨same, paired⟩ := List.forall₂_iff_get.mp (assemble_records collected options)
  obtain ⟨index, inside, rfl⟩ := List.mem_iff_getElem.mp (Array.mem_toList_iff.mpr member)
  have listed := List.getElem_mem (same ▸ inside)
  exact ⟨_, (List.mem_filter.mp listed).1, paired index inside (same ▸ inside)⟩

/-- An entry records a piece of a section, and its range of the code is the text of the piece. -/
theorem assemble_covers {collected : Collected} {options : Options} {entry : Projection}
    (member : entry ∈ (assemble collected options).table.entries) :
    ∃ kind, ∃ piece ∈ (collected.frame.part kind).pieces,
      piece.origin? = some entry.origin ∧ piece.text ≠ "" ∧
      entry.generated.Covers (assemble collected options).code.toList piece.text.toList := by
  obtain ⟨piece, laid, records⟩ := exists_recorded member
  obtain ⟨kind, own⟩ := mem_laidOut laid
  obtain ⟨remembered, nonempty, -⟩ := Piece.recorded?_eq_some records.recorded
  exact ⟨kind, piece, own, remembered, nonempty, records.covers⟩

theorem assemble_ordered (collected : Collected) (options : Options) :
    (assemble collected options).table.Ordered where
  forward entry member := by
    obtain ⟨piece, -, records⟩ := exists_recorded (Array.mem_toList_iff.mp member)
    exact Nat.le.intro records.covers.stop_eq.symm
  apart := by
    obtain ⟨pieces, -, entries, -⟩ := assemble_pieces collected options
    rw [entries]
    exact projectionsFrom_apart 0 0 pieces

end Program

end TextTemplate
