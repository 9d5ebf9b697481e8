import TextTemplate.Proofs.TextPositions

/-! The line that a report shows, and the carets beneath it. A range within a line is marked from its first
character on. The row has a caret for each byte of the range, as far as the line goes; so it ends with the
range if every character of the range is one byte, or if nothing of the line is behind the range. -/

namespace TextTemplate

namespace Text

/-- A line of a text as it is shown, without its ending: a newline, and a carriage return in front of it. The
last line may have none. -/
structure IsLine (text above line ending below : List Char) : Prop where
  split : text = above ++ (line ++ (ending ++ below))
  opens : OpensLine above
  single : '\n' ∉ line
  ended : (ending = ['\n'] ∧ line.getLast? ≠ some '\r') ∨ ending = ['\r', '\n'] ∨ (ending = [] ∧ below = [])

variable {text above line ending below : List Char}

private theorem OpensLine.of_cons_newline {more : List Char} (opens : OpensLine ('\n' :: more)) : OpensLine more := by
  cases more with
  | nil => exact .inl rfl
  | cons => exact .inr (opens.resolve_left (List.cons_ne_nil _ _))

private theorem exists_lineRuns (opens : OpensLine above) (rest : List Char) :
    ∃ lines, lines.length = newlines above ∧ lineRuns (above ++ rest) = lines ++ lineRuns rest := by
  induction above with
  | nil => exact ⟨[], rfl, rfl⟩
  | cons c more ih =>
    by_cases newline : c = '\n'
    · subst newline
      obtain ⟨lines, counted, cut⟩ := ih opens.of_cons_newline
      refine ⟨['\n'] :: lines, ?_, ?_⟩
      · rw [List.length_cons, counted]
        exact List.count_cons_self.symm
      · rw [List.cons_append, lineRuns, if_pos rfl, cut]
        rfl
    · have closed := opens.resolve_left (List.cons_ne_nil c more)
      cases more with
      | nil => exact absurd (Option.some.inj closed) newline
      | cons second others =>
        obtain ⟨lines, counted, cut⟩ := ih (.inr closed)
        have same : newlines (c :: second :: others) = newlines (second :: others) := List.count_cons_of_ne newline
        have some : 0 < newlines (second :: others) := List.count_pos_iff.mpr (List.mem_of_getLast? closed)
        rw [← counted] at some
        obtain ⟨first, later, rfl⟩ := List.exists_cons_of_length_pos some
        refine ⟨(c :: first) :: later, counted.trans same.symm, ?_⟩
        rw [List.cons_append, lineRuns, if_neg newline, cut]
        rfl

private theorem lineRuns_line (single : '\n' ∉ line) (below : List Char) :
    lineRuns (line ++ '\n' :: below) = (line ++ ['\n']) :: lineRuns below := by
  induction line with
  | nil => rw [List.nil_append, lineRuns, if_pos rfl]; rfl
  | cons c rest ih =>
    have apart : c ≠ '\n' := fun same => single (same ▸ List.mem_cons_self)
    rw [List.cons_append, lineRuns, if_neg apart, ih (List.not_mem_of_not_mem_cons single)]
    rfl

private theorem lineRuns_last (single : '\n' ∉ line) (nonempty : line ≠ []) : lineRuns line = [line] := by
  induction line with
  | nil => exact absurd rfl nonempty
  | cons c rest ih =>
    have apart : c ≠ '\n' := fun same => single (same ▸ List.mem_cons_self)
    rw [lineRuns, if_neg apart]
    cases rest with
    | nil => rfl
    | cons second others => rw [ih (List.not_mem_of_not_mem_cons single) (List.cons_ne_nil _ _)]

namespace IsLine
variable (stands : IsLine text above line ending below)
include stands

private theorem withoutEnding_eq : withoutEnding (line ++ ending) = line := by
  have single : '\n' ∉ line.reverse := fun member => stands.single (List.mem_reverse.mp member)
  unfold withoutEnding
  rcases stands.ended with ⟨rfl, bare⟩ | rfl | ⟨rfl, -⟩
  · rw [List.reverse_concat]
    split
    next rest same =>
      have last : line.getLast? = some '\r' := by
        rw [← List.head?_reverse, (List.cons.inj same).2]
        rfl
      exact absurd last bare
    next rest _ same => rw [← (List.cons.inj same).2, List.reverse_reverse]
    next none => exact absurd rfl (none _)
  · rw [List.reverse_append]
    exact List.reverse_reverse line
  · rw [List.append_nil]
    split
    next rest same => exact absurd (same ▸ List.mem_cons_self) single
    next rest _ same => exact absurd (same ▸ List.mem_cons_self) single
    next => rfl

private theorem shownLines_getElem? (nonempty : line ≠ []) : (shownLines text)[newlines above]? = some line := by
  have first : ∃ later, lineRuns (line ++ (ending ++ below)) = (line ++ ending) :: later := by
    rcases stands.ended with ⟨rfl, -⟩ | rfl | ⟨rfl, rfl⟩
    · exact ⟨_, lineRuns_line stands.single below⟩
    · have single : '\n' ∉ line ++ ['\r'] := by
        intro member
        rcases List.mem_append.mp member with here | last
        · exact stands.single here
        · exact absurd (List.mem_singleton.mp last) (by decide)
      have cut := lineRuns_line single below
      rw [List.append_assoc, List.append_assoc] at cut
      exact ⟨_, cut⟩
    · refine ⟨[], ?_⟩
      rw [List.append_nil, List.append_nil]
      exact lineRuns_last stands.single nonempty
  obtain ⟨later, here⟩ := first
  obtain ⟨lines, counted, cut⟩ := exists_lineRuns stands.opens (line ++ (ending ++ below))
  rw [shownLines, stands.split, cut, here, List.getElem?_map, ← counted, List.getElem?_append_right (Nat.le_refl _),
    Nat.sub_self, List.getElem?_cons_zero, Option.map_some, stands.withoutEnding_eq]

end IsLine

theorem length_le_width (part : List Char) : part.length ≤ width part := by
  induction part with
  | nil => exact Nat.le_refl _
  | cons c rest ih =>
    have first := Char.utf8Size_pos c
    rw [width_cons, List.length_cons]
    omega

private theorem width_eq_length_iff {part : List Char} : width part = part.length ↔ ∀ c ∈ part, c.utf8Size = 1 := by
  induction part with
  | nil => exact iff_of_true rfl (List.forall_mem_nil _)
  | cons c rest ih =>
    have first := Char.utf8Size_pos c
    have others := length_le_width rest
    rw [width_cons, List.length_cons, List.forall_mem_cons, ← ih]
    omega

end Text

private theorem padLeft_length {size : Nat} {text : String} (fits : text.length ≤ size) :
    (padLeft size text).length = size := by
  rw [padLeft, String.length_append, String.length_ofList, List.length_replicate]
  omega

namespace Problem
open Text

def margin (line : Nat) : Nat :=
  max 2 (toString (line + 1)).length

private theorem margin_aligned (line : Nat) :
    (padLeft (margin line) (toString (line + 1))).length = (padLeft (margin line) "").length := by
  have fits : (toString (line + 1)).length ≤ margin line := Nat.le_max_right ..
  rw [padLeft_length fits, padLeft_length (Nat.zero_le _)]

/-- The rows of a report about a line, with a row of carets that starts in some column. -/
def markedLine (place : Nat × Nat) (line : List Char) (carets : Nat) : String :=
  padLeft (margin place.1) "" ++ " |\n" ++
    (padLeft (margin place.1) (toString (place.1 + 1)) ++ " | " ++ .ofList line ++ "\n") ++
    (padLeft (margin place.1) "" ++ " | " ++ .ofList (List.replicate place.2 ' ' ++ List.replicate carets '^') ++ "\n")

private theorem excerpt_plain (problem : Problem) (place : Nat × Nat) (line : List Char) :
    problem.excerpt .plain place line = markedLine place line (caretCount problem.span place.2 line) := by
  simp only [excerpt, markedLine, row, Palette.plain, margin, String.empty_append, String.append_empty,
    String.ofList_append, String.append_assoc]
  rfl

/-- A caret row is as long as its range, or longer: it ends with the range if the range has no wider
characters, or goes to the end of the line. -/
theorem caretCount_range {span : Span} (lead : List Char) {part trail : List Char} (nonempty : part ≠ [])
    (stop : span.stop = span.start + width part) :
    let carets := caretCount span lead.length (lead ++ (part ++ trail))
    carets = min (width part) (part ++ trail).length ∧ part.length ≤ carets ∧
      (carets = part.length ↔ (∀ c ∈ part, c.utf8Size = 1) ∨ trail = []) := by
  intro carets
  have wide := width_pos nonempty
  have some := List.length_pos_iff.mpr nonempty
  have bytes := length_le_width part
  have covered : span.length = width part := by
    rw [Span.length, stop, Nat.add_sub_cancel_left]
  have available : (lead ++ (part ++ trail)).length - lead.length = part.length + trail.length := by
    rw [List.length_append, List.length_append, Nat.add_sub_cancel_left]
  have count : carets = min (width part) (part.length + trail.length) := by
    have least : carets = max 1 (min (width part) (part.length + trail.length)) := by
      rw [← covered, ← available]
      rfl
    omega
  rw [← width_eq_length_iff, ← List.length_eq_zero_iff, List.length_append]
  omega

/-- A range of characters within a line is shown with its line, and marked from below its first character
on. There are no more carets than characters exactly if each character is one byte or nothing of the line is
behind the range; otherwise the carets go on below what is behind it. -/
theorem report_marks {problem : Problem} {text : String} {above lead part trail ending below : List Char}
    (stands : IsLine text.toList above (lead ++ (part ++ trail)) ending below) (nonempty : part ≠ [])
    (start : problem.span.start = width (above ++ lead)) (stop : problem.span.stop = problem.span.start + width part) :
    ∃ carets, problem.report text .plain =
        heading problem.source (newlines above, lead.length) ++ (problem.warning .plain ++
          markedLine (newlines above, lead.length) (lead ++ (part ++ trail)) carets) ∧
      (padLeft (margin (newlines above)) (toString (newlines above + 1))).length =
        (padLeft (margin (newlines above)) "").length ∧
      carets = min (width part) (part ++ trail).length ∧ part.length ≤ carets ∧
      (carets = part.length ↔ (∀ c ∈ part, c.utf8Size = 1) ∨ trail = []) := by
  have passed : IsPassed text.toList (above ++ lead) problem.span.start :=
    ⟨⟨part ++ trail ++ (ending ++ below), by simp [stands.split]⟩, Nat.le_of_eq start.symm, .inl start.symm⟩
  have single : '\n' ∉ lead := fun member => stands.single (List.mem_append_left _ member)
  have placed : position text.toList problem.span.start = (newlines above, lead.length) :=
    (endsAt_iff.mp passed.endsAt).trans (endsAt_iff.mp (endsAt_line stands.opens single)).symm
  have long : lead ++ (part ++ trail) ≠ [] :=
    List.append_ne_nil_of_right_ne_nil _ (List.append_ne_nil_of_left_ne_nil nonempty _)
  have shown : problem.excerpts text .plain (newlines above, lead.length) =
      problem.excerpt .plain (newlines above, lead.length) (lead ++ (part ++ trail)) := by
    rw [excerpts, stands.shownLines_getElem? long]
    rfl
  refine ⟨_, ?_, margin_aligned (newlines above), caretCount_range lead nonempty stop⟩
  rw [report_eq placed, shown, excerpt_plain]

def missingProblem : Problem :=
  ⟨.unresolvedInclude, ⟨"a.tt"⟩, ⟨18, 23⟩, "cannot resolve include"⟩

def missingText : String := "<#@ include file=\"é.tt\" #>\r\n"

theorem report_marks_missing :
    IsLine missingText.toList [] ("<#@ include file=\"".toList ++ ("é.tt".toList ++ "\" #>".toList)) ['\r', '\n'] [] ∧
      missingProblem.span.start = width "<#@ include file=\"".toList ∧
      missingProblem.span.stop = missingProblem.span.start + width "é.tt".toList ∧
      ∃ carets, missingProblem.report missingText .plain =
          heading ⟨"a.tt"⟩ (0, 18) ++ (missingProblem.warning .plain ++
            markedLine (0, 18) "<#@ include file=\"é.tt\" #>".toList carets) ∧
        carets ≠ 4 := by
  have stands : IsLine missingText.toList [] ("<#@ include file=\"".toList ++ ("é.tt".toList ++ "\" #>".toList))
      ['\r', '\n'] [] :=
    ⟨by decide, .inl rfl, by decide, .inr (.inl rfl)⟩
  have start : missingProblem.span.start = width "<#@ include file=\"".toList := by decide
  have stop : missingProblem.span.stop = missingProblem.span.start + width "é.tt".toList := by decide
  obtain ⟨carets, reported, -, -, -, exact_⟩ := report_marks stands (by decide) start stop
  refine ⟨stands, start, stop, carets, reported, fun four => ?_⟩
  rcases exact_.mp four with narrow | last
  · have wide : 'é'.utf8Size = 2 := rfl
    have letter : 'é' ∈ "é.tt".toList := List.mem_cons_self
    rw [narrow 'é' letter] at wide
    cases wide
  · cases last

/-- The range has four characters, and there is a fifth caret beneath the quote behind it. -/
theorem wide_range_overmarked :
    missingProblem.span.slice? missingText = some "é.tt" ∧ "é.tt".length = 4 ∧
      missingProblem.report missingText .plain =
        " file: a.tt:1:19\nwarning: Unresolved include: cannot resolve include\n   |\n" ++
          " 1 | <#@ include file=\"é.tt\" #>\n" ++
          "   |                   ^^^^^\n" := by
  refine ⟨?_, ?_, ?_⟩ <;> decide +kernel

end Problem

end TextTemplate
