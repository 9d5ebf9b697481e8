import TextTemplate.Proofs.Encounters
import TextTemplate.Proofs.Origins

/-! Runs of literal text: their statements write the text of the run line by line, and, when the
run is made of text nodes of a template, each line comes from the range it was cut from. -/

namespace TextTemplate
open Text

@[simp] theorem Piece.mapped_text (text : String) (origin : Origin) :
    (Piece.mapped text origin).text = text := by
  unfold mapped
  split <;> rfl

theorem Piece.eq_of_mapped {text : String} {mapped origin : Origin}
    (remembered : (Piece.mapped text mapped).origin? = some origin) : mapped = origin := by
  unfold Piece.mapped at remembered
  split at remembered
  · cases remembered
  · exact Option.some.inj remembered

namespace Segment

private theorem writesFrom_texts (source : SourceId) (span : Span) (offset : Nat) (lines : List (List Char)) :
    (writesFrom source span offset lines).map Piece.text =
      lines.flatMap fun line => [writeOpening, String.ofList (Code.escapeChars line), writeClosing] := by
  induction lines generalizing offset with
  | nil => rfl
  | cons line rest ih =>
    simp only [writesFrom, List.map_cons, ih, Piece.mapped_text, Piece.plain, List.flatMap_cons,
      List.cons_append, List.nil_append]

private theorem join_extend (text : LiteralText) (segments : List Segment) :
    String.join ((extend text segments).map Segment.text) =
      String.join (segments.map Segment.text) ++ text.content := by
  fun_induction extend text segments with
  | case1 => simp
  | case2 last touching => simp
  | case3 last apart => simp
  | case4 first rest more ih =>
    rw [List.map_cons, String.join_cons, ih, List.map_cons, String.join_cons, String.append_assoc]

end Segment

namespace LiteralState

theorem join_consume (state : LiteralState) (text : LiteralText) :
    String.join ((state.consume text).segments.map Segment.text) =
      String.join (state.segments.map Segment.text) ++ text.content := by
  unfold consume
  split
  next empty =>
    rw [String.isEmpty_iff.mp empty, String.append_empty]
    rfl
  next => exact Segment.join_extend text state.segments

theorem join_consumeAll (texts : List LiteralText) (state : LiteralState) :
    String.join ((texts.foldl consume state).segments.map Segment.text) =
      String.join (state.segments.map Segment.text) ++ String.join (texts.map LiteralText.content) := by
  induction texts generalizing state with
  | nil => simp
  | cons text rest ih =>
    rw [List.foldl_cons, ih, join_consume, List.map_cons, String.join_cons, String.append_assoc]

end LiteralState

private theorem Segment.join_lines (segment : Segment) :
    String.join (segment.lines.map String.ofList) = segment.text := by
  apply String.toList_inj.mp
  rw [String.toList_join, List.flatMap_map]
  simp only [String.toList_ofList, Segment.lines]
  exact List.flatMap_id.trans (Text.flatten_lineRuns _)

theorem Segment.text_of_lines {segment : Segment} {earlier later : List (List Char)} {line : List Char}
    (split : segment.lines = earlier ++ line :: later) :
    segment.text.toList = earlier.flatten ++ (line ++ later.flatten) := by
  rw [← Text.flatten_lineRuns segment.text.toList, ← Segment.lines, split, List.flatten_append, List.flatten_cons]

/-- The statements of lines map each of them to where it stands in the segment. -/
theorem Segment.mem_writesFrom {source : SourceId} {span : Span} {offset : Nat} {lines : List (List Char)}
    {piece : Piece} (written : piece ∈ writesFrom source span offset lines) :
    piece.origin? = none ∨ ∃ earlier line later, lines = earlier ++ line :: later ∧
      piece = .mapped (.ofList (Code.escapeChars line)) ⟨source, span.narrow (offset + width earlier.flatten)
        (offset + width earlier.flatten + width line), .text⟩ := by
  induction lines generalizing offset with
  | nil => cases written
  | cons line rest ih =>
    simp only [writesFrom, List.mem_cons] at written
    rcases written with rfl | rfl | rfl | written
    · exact .inl rfl
    · exact .inr ⟨[], line, rest, rfl, rfl⟩
    · exact .inl rfl
    · rcases ih written with plain | ⟨earlier, other, later, rfl, same⟩
      · exact .inl plain
      · refine .inr ⟨line :: earlier, other, later, rfl, ?_⟩
        rw [same, List.flatten_cons, width_append, Nat.add_assoc offset]

theorem Segment.mapped_mem_writesFrom (source : SourceId) (span : Span) (offset : Nat)
    (earlier later : List (List Char)) (line : List Char) :
    .mapped (.ofList (Code.escapeChars line)) ⟨source, span.narrow (offset + width earlier.flatten)
      (offset + width earlier.flatten + width line), .text⟩ ∈
      writesFrom source span offset (earlier ++ line :: later) := by
  induction earlier generalizing offset with
  | nil => exact List.mem_cons_of_mem _ List.mem_cons_self
  | cons first rest ih =>
    have behind := ih (offset + width first)
    rw [Nat.add_assoc offset, ← width_append] at behind
    exact List.mem_cons_of_mem _ (List.mem_cons_of_mem _ (List.mem_cons_of_mem _ behind))

theorem Text.ne_nil_of_mem_lineRuns {text line : List Char} (member : line ∈ lineRuns text) : line ≠ [] := by
  fun_induction lineRuns text with
  | case1 => cases member
  | case2 rest ih =>
    rcases List.mem_cons.mp member with rfl | later
    · exact List.cons_ne_nil _ _
    · exact ih later
  | case3 c rest plain empty ih =>
    cases List.mem_singleton.mp member
    exact List.cons_ne_nil _ _
  | case4 c rest plain first more split ih =>
    rcases List.mem_cons.mp member with rfl | later
    · exact List.cons_ne_nil _ _
    · exact ih (split ▸ List.mem_cons_of_mem _ later)

theorem Segment.join_allLines (segments : List Segment) :
    String.join ((segments.flatMap Segment.lines).map String.ofList) =
      String.join (segments.map Segment.text) := by
  induction segments with
  | nil => rfl
  | cons segment rest ih =>
    rw [List.flatMap_cons, List.map_append, String.join_append, ih, join_lines, List.map_cons, String.join_cons]

/-- A flushed run is a sequence of statements, one for each line of its text. -/
theorem Emission.ofSegments_texts (source : SourceId) (segments : List Segment) :
    (ofSegments source segments).pieces.map Piece.text =
      ((segments.flatMap Segment.lines).map String.ofList).flatMap fun line =>
        [writeOpening, Code.escape line, writeClosing] := by
  induction segments with
  | nil => rfl
  | cons segment rest ih =>
    simp only [ofSegments, List.flatMap_map, Code.escape, String.toList_ofList] at ih ⊢
    rw [List.flatMap_cons, List.map_append, ih, Segment.writes, Segment.writesFrom_texts, List.flatMap_cons,
      List.flatMap_append]

theorem join_statements (lines : List String) :
    String.join (lines.flatMap fun line => [writeOpening, Code.escape line, writeClosing]) =
      String.join (lines.map fun line => writeOpening ++ Code.escape line ++ writeClosing) := by
  induction lines with
  | nil => rfl
  | cons line rest ih =>
    rw [List.flatMap_cons, String.join_append, ih, List.map_cons, String.join_cons]
    simp only [String.join_cons, String.join_nil, String.append_empty, String.append_assoc]

/-- A segment of a run whose texts are nodes of the template. -/
structure Segment.Sound (template : Template) (segment : Segment) : Prop where
  covers : segment.span.Covers template.text.toList segment.text.toList
  text : ∀ offset, segment.span.contains offset = true → template.IsTextAt offset

namespace Segment.Sound
variable {template : Template} {literal : LiteralText}

private theorem ofText (faithful : template.Faithful) (member : .text literal ∈ template.nodes) :
    Sound template ⟨literal.content, literal.span⟩ :=
  have quoted : (literal.content, literal.span) ∈ (Node.text literal).quotes := List.mem_singleton_self _
  have covers := faithful.covers _ member _ quoted
  ⟨covers, fun _ within => ⟨literal, member, within⟩⟩

/-- Texts are joined only where their spans touch, so the joined span covers the joined text. -/
theorem join {last : Segment} (sound : Sound template last)
    (follows : Sound template ⟨literal.content, literal.span⟩)
    (touching : last.span.stop = literal.span.start) :
    Sound template ⟨last.text ++ literal.content, ⟨last.span.start, literal.span.stop⟩⟩ where
  covers := by
    rw [String.toList_append]
    exact sound.covers.join follows.covers touching
  text offset within := by
    rw [Span.contains_iff] at within
    by_cases early : offset < last.span.stop
    · exact sound.text offset (Span.contains_iff.mpr ⟨within.1, early⟩)
    · have late : literal.span.start ≤ offset := by omega
      exact follows.text offset (Span.contains_iff.mpr ⟨late, within.2⟩)

private theorem extend (follows : Sound template ⟨literal.content, literal.span⟩) (segments : List Segment)
    (sound : ∀ segment ∈ segments, Sound template segment) :
    ∀ segment ∈ Segment.extend literal segments, Sound template segment := by
  fun_induction Segment.extend literal segments with
  | case1 => simpa using follows
  | case2 last touching => simpa using join (sound last List.mem_cons_self) follows touching
  | case3 last apart => simpa using ⟨sound last List.mem_cons_self, follows⟩
  | case4 first rest more ih =>
    intro segment member
    rcases List.mem_cons.mp member with rfl | later
    · exact sound _ List.mem_cons_self
    · exact ih (fun segment member => sound segment (List.mem_cons_of_mem _ member)) segment later

theorem consumeAll (faithful : template.Faithful) (texts : List LiteralText)
    (own : ∀ literal ∈ texts, .text literal ∈ template.nodes) (state : LiteralState)
    (sound : ∀ segment ∈ state.segments, Sound template segment) :
    ∀ segment ∈ (texts.foldl LiteralState.consume state).segments, Sound template segment := by
  induction texts generalizing state with
  | nil => exact sound
  | cons literal rest ih =>
    apply ih (fun other member => own other (List.mem_cons_of_mem _ member))
    unfold LiteralState.consume
    split
    · exact sound
    · exact extend (ofText faithful (own literal List.mem_cons_self)) state.segments sound

private theorem writes_accounts {bundle : Bundle} {source : SourceId}
    (found : bundle.find? source = some template) {segment : Segment} (sound : Sound template segment) :
    ∀ piece ∈ segment.writes source, bundle.Accounts piece := by
  intro piece member
  rcases mem_writesFrom member with plain | ⟨earlier, line, later, split, rfl⟩
  · exact Bundle.accounts_of_plain bundle plain
  · have covers := sound.covers
    rw [text_of_lines split] at covers
    rw [Nat.zero_add]
    refine Bundle.accounts_mapped found fun nonempty => ⟨line, ?_, covers.narrow, ?_, ?_⟩
    · rintro rfl
      exact nonempty rfl
    · rw [String.toList_ofList]
      rfl
    · intro offset within
      exact iff_of_true (sound.text offset (covers.contains_of_narrow within)) rfl

end Segment.Sound

theorem Emission.ofTexts_accounts {bundle : Bundle} {source : SourceId} {template : Template}
    (found : bundle.find? source = some template) (faithful : template.Faithful)
    {texts : List LiteralText} (own : ∀ literal ∈ texts, .text literal ∈ template.nodes) :
    ∀ piece ∈ (ofTexts source texts).pieces, bundle.Accounts piece := by
  intro piece member
  obtain ⟨segment, pending, written⟩ := List.mem_flatMap.mp member
  have sound := Segment.Sound.consumeAll faithful texts own .atStart (List.forall_mem_nil _) segment pending
  exact sound.writes_accounts found piece written

end TextTemplate
