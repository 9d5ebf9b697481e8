import TextTemplate.Proofs.CountedLines

/-! Literal text is neither lost nor made up. However text is taken and flushed, in whatever order and from
wherever it says it comes: what the statements written so far write, and behind it the text that is still
held back, is all the text that was taken. A reader of programs decodes the statements; it knows of them
only how they begin, that their literal ends at a quote, and how they end. -/

namespace TextTemplate

namespace Code

/-- The text that the write statement at the front of a program writes, and the program behind it. -/
def firstWrite? (program : List Char) : Option (List Char × List Char) :=
  (writeOpening.toList.isPrefixOf? program).bind fun literal =>
    (scanLiteral? literal).bind fun scanned =>
      (writeEnding.toList.isPrefixOf? scanned.2).map fun rest => (unescapeChars scanned.1, rest)

private theorem scanLiteral?_rest_length {literal : List Char} {scanned : List Char × List Char}
    (scan : scanLiteral? literal = some scanned) : scanned.2.length ≤ literal.length := by
  fun_induction scanLiteral? literal generalizing scanned with
  | case1 => cases scan
  | case2 rest =>
    cases scan
    exact Nat.le_succ _
  | case3 => cases scan
  | case4 taken rest ih =>
    obtain ⟨parts, inner, rfl⟩ := Option.map_eq_some_iff.mp scan
    have shorter := ih inner
    simp only [List.length_cons]
    omega
  | case5 c rest _ _ _ ih =>
    obtain ⟨parts, inner, rfl⟩ := Option.map_eq_some_iff.mp scan
    have shorter := ih inner
    exact Nat.le_succ_of_le shorter

private theorem firstWrite?_rest_length {program text rest : List Char}
    (first : firstWrite? program = some (text, rest)) :
    rest.length < program.length := by
  obtain ⟨literal, opened, inner⟩ := Option.bind_eq_some_iff.mp first
  obtain ⟨scanned, scan, closing⟩ := Option.bind_eq_some_iff.mp inner
  obtain ⟨behind, closed, same⟩ := Option.map_eq_some_iff.mp closing
  obtain rfl := List.isPrefixOf?_eq_some_iff_append_eq.mp opened
  have ended := List.isPrefixOf?_eq_some_iff_append_eq.mp closed
  have shorter := scanLiteral?_rest_length scan
  have opening : 0 < writeOpening.toList.length := by decide
  obtain ⟨-, rfl⟩ := Prod.mk.inj same
  rw [← ended, List.length_append] at shorter
  rw [List.length_append]
  omega

/-- The texts that a program of write statements writes, one for each statement; nothing if it has any
other statement. -/
def writes? (program : List Char) : Option (List (List Char)) :=
  if program = [] then
    some []
  else
    match _ : firstWrite? program with
    | none => none
    | some (text, rest) => (writes? rest).map (text :: ·)
termination_by program.length
decreasing_by exact firstWrite?_rest_length ‹_›

private theorem firstWrite?_statement (line : String) (rest : List Char) :
    firstWrite? ((writeOpening ++ escape line ++ writeClosing).toList ++ rest) = some (line.toList, rest) := by
  have opened : writeOpening.toList.isPrefixOf? ((writeOpening ++ escape line ++ writeClosing).toList ++ rest) =
      some ((escape line).toList ++ '"' :: (writeEnding.toList ++ rest)) := by
    apply List.isPrefixOf?_eq_some_iff_append_eq.mpr
    have closing : writeClosing.toList = '"' :: writeEnding.toList := by decide
    simp only [String.toList_append, closing, List.append_assoc, List.cons_append]
  have closed : writeEnding.toList.isPrefixOf? (writeEnding.toList ++ rest) = some rest :=
    List.isPrefixOf?_eq_some_iff_append_eq.mpr rfl
  have decoded : unescapeChars (escape line).toList = line.toList :=
    (denotes_escape_iff.mpr rfl).unescape
  rw [firstWrite?, opened, Option.bind_some, scanLiteral?_escape, Option.bind_some, closed, Option.map_some, decoded]

private theorem writes?_statement (line : String) (rest : List Char) :
    writes? ((writeOpening ++ escape line ++ writeClosing).toList ++ rest) =
      (writes? rest).map (line.toList :: ·) := by
  have first := firstWrite?_statement line rest
  generalize (writeOpening ++ escape line ++ writeClosing).toList ++ rest = program at first ⊢
  have some : program ≠ [] := by
    rintro rfl
    cases first
  rw [writes?, if_neg some]
  split
  next none => rw [first] at none; cases none
  next text behind found =>
    rw [first] at found
    cases found
    rfl

theorem writes?_statements (lines : List String) :
    writes? (String.join (lines.map fun line => writeOpening ++ escape line ++ writeClosing)).toList =
      some (lines.map String.toList) := by
  induction lines with
  | nil =>
    rw [writes?]
    rfl
  | cons line rest ih => rw [List.map_cons, String.join_cons, String.toList_append, writes?_statement, ih]; rfl

end Code

inductive LiteralAction where
  | consume (text : LiteralText)
  | flush (boundary : Boundary) (source : SourceId)

/-- What literal text has come to: the state it is held back in, and the emissions so far. -/
structure Transcript where
  state : LiteralState := .atStart
  emissions : List Emission := []

namespace LiteralAction

def content : LiteralAction → String
  | .consume text => text.content
  | .flush _ _ => ""

def apply (transcript : Transcript) : LiteralAction → Transcript
  | .consume text => { transcript with state := transcript.state.consume text }
  | .flush boundary source =>
    let flushed := transcript.state.flush boundary source
    ⟨flushed.1, transcript.emissions ++ [flushed.2]⟩

def applyAll (actions : List LiteralAction) : Transcript :=
  actions.foldl apply {}

end LiteralAction

namespace Emission

def render (emission : Emission) : String :=
  renderedText emission.pieces

theorem render_ofSegments (source : SourceId) (segments : List Segment) :
    (ofSegments source segments).render =
      String.join (((segments.flatMap Segment.lines).map String.ofList).map fun line =>
        writeOpening ++ Code.escape line ++ writeClosing) := by
  rw [render, renderedText, ofSegments_texts, join_statements]

end Emission

namespace LiteralState

def pendingText (state : LiteralState) : String :=
  state.runText?.getD ""

theorem pendingText_eq (state : LiteralState) : state.pendingText = String.join (state.segments.map Segment.text) := by
  cases state <;> rfl

private theorem pendingText_consume (state : LiteralState) (text : LiteralText) :
    (state.consume text).pendingText = state.pendingText ++ text.content := by
  rw [pendingText_eq, pendingText_eq, join_consume]

private theorem pendingText_after (boundary : Boundary) : (after boundary).pendingText = "" := by
  cases boundary <;> rfl

end LiteralState

namespace Transcript

def program (transcript : Transcript) : String :=
  String.join (transcript.emissions.map Emission.render)

/-- The statements written so far write some lines, and those together with what is held back are `consumed`. -/
structure Conserves (transcript : Transcript) (consumed : String) : Prop where
  flushed : ∀ emission ∈ transcript.emissions, ∃ source segments, emission = .ofSegments source segments
  conserved : ∃ lines, transcript.program = String.join (lines.map fun line =>
      writeOpening ++ Code.escape line ++ writeClosing) ∧
    String.join lines ++ transcript.state.pendingText = consumed

namespace Conserves
variable {transcript : Transcript} {consumed : String}

private theorem start : Conserves {} "" where
  flushed := List.forall_mem_nil _
  conserved := ⟨[], rfl, rfl⟩

private theorem apply (conserves : transcript.Conserves consumed) (action : LiteralAction) :
    (action.apply transcript).Conserves (consumed ++ action.content) := by
  obtain ⟨lines, written, same⟩ := conserves.conserved
  cases action with
  | consume text =>
    refine ⟨conserves.flushed, lines, written, ?_⟩
    show String.join lines ++ (transcript.state.consume text).pendingText = _
    rw [LiteralState.pendingText_consume, ← String.append_assoc, same]
    rfl
  | flush boundary source =>
    refine ⟨?_, lines ++ (transcript.state.segments.flatMap Segment.lines).map String.ofList, ?_, ?_⟩
    · intro emission member
      rcases List.mem_append.mp member with earlier | last
      · exact conserves.flushed emission earlier
      · exact ⟨source, transcript.state.segments, List.mem_singleton.mp last⟩
    · show String.join ((transcript.emissions ++ [_]).map Emission.render) = _
      rw [List.map_append, String.join_append, ← program, written, List.map_singleton, String.join_cons,
        String.join_nil, String.append_empty, LiteralState.flush, Emission.render_ofSegments, List.map_append,
        String.join_append]
    · show _ ++ (LiteralState.after boundary).pendingText = _
      rw [LiteralState.pendingText_after, String.join_append, Segment.join_allLines, ← LiteralState.pendingText_eq, same]
      rfl

private theorem foldl (conserves : transcript.Conserves consumed) (actions : List LiteralAction) :
    (actions.foldl LiteralAction.apply transcript).Conserves
      (consumed ++ String.join (actions.map LiteralAction.content)) := by
  induction actions generalizing transcript consumed with
  | nil =>
    rw [List.map_nil, String.join_nil, String.append_empty]
    exact conserves
  | cons action rest ih =>
    rw [List.map_cons, String.join_cons, ← String.append_assoc]
    exact ih (conserves.apply action)

private theorem applyAll (actions : List LiteralAction) :
    (LiteralAction.applyAll actions).Conserves (String.join (actions.map LiteralAction.content)) := by
  have ended := start.foldl actions
  rw [String.empty_append] at ended
  exact ended

private theorem exists_writes (conserves : transcript.Conserves consumed) :
    ∃ texts, Code.writes? transcript.program.toList = some texts ∧
      String.ofList texts.flatten ++ transcript.state.pendingText = consumed := by
  obtain ⟨lines, written, same⟩ := conserves.conserved
  refine ⟨lines.map String.toList, ?_, ?_⟩
  · rw [written]
    exact Code.writes?_statements lines
  · have joined : String.ofList (lines.map String.toList).flatten = String.join lines := by
      apply String.toList_inj.mp
      rw [String.toList_ofList, String.toList_join, List.flatMap_def]
    rw [joined, same]

end Conserves

end Transcript

end TextTemplate
