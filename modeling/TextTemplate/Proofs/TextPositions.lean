import Mathlib.Data.List.Induction
import TextTemplate.Problem.Report
import TextTemplate.Proofs.Slices

/-! Where reports place a problem in its text. The place of an offset is told by what stands in front of it:
by the newlines there, and by the characters since the last of them. An offset inside a character is placed
as if the whole text stood in front of it. So places follow the order of offsets, except behind such an
offset. -/

namespace TextTemplate

namespace Text

/-- The text right up to a line of its own: it is empty or its last character is a newline. -/
def OpensLine (front : List Char) : Prop :=
  front = [] ∨ front.getLast? = some '\n'

/-- The line and the column of what comes right behind `passed`, both counted from zero. -/
structure EndsAt (passed : List Char) (place : Nat × Nat) : Prop where
  line : place.1 = newlines passed
  column : ∃ front part, passed = front ++ part ∧ OpensLine front ∧ '\n' ∉ part ∧ place.2 = part.length

def IsInside (text : List Char) (offset : Nat) : Prop :=
  ∃ front c back, text = front ++ c :: back ∧ width front < offset ∧ offset < width front + c.utf8Size

/-- `front` is what stands in front of an offset of the text: all of it, if the offset is past its end. -/
structure IsPassed (text front : List Char) (offset : Nat) : Prop where
  begins : front <+: text
  reached : width front ≤ offset
  stopped : width front = offset ∨ front = text

def NotAfter (first second : Nat × Nat) : Prop :=
  first.1 < second.1 ∨ first.1 = second.1 ∧ first.2 ≤ second.2

variable {text front part : List Char} {offset : Nat}

private theorem lastLine_append (opens : OpensLine front) (single : '\n' ∉ part) : lastLine (front ++ part) = part := by
  have within : ∀ c ∈ part.reverse, (c != '\n') = true := by
    intro c member
    apply bne_iff_ne.mpr
    rintro rfl
    exact single (List.mem_reverse.mp member)
  have stops : front.reverse.takeWhile (· != '\n') = [] := by
    rcases opens with rfl | last
    · rfl
    · obtain ⟨earlier, rfl⟩ := List.getLast?_eq_some_iff.mp last
      rw [List.reverse_concat]
      rfl
  rw [lastLine, List.reverse_append, List.takeWhile_append_of_pos within, stops, List.append_nil,
    List.reverse_reverse]

private theorem exists_line_start (text : List Char) :
    ∃ front part, text = front ++ part ∧ OpensLine front ∧ '\n' ∉ part := by
  induction text using List.reverseRecOn with
  | nil => exact ⟨[], [], rfl, .inl rfl, List.not_mem_nil⟩
  | append_singleton earlier c ih =>
    by_cases newline : c = '\n'
    · subst newline
      exact ⟨earlier ++ ['\n'], [], (List.append_nil _).symm, .inr List.getLast?_concat, List.not_mem_nil⟩
    · obtain ⟨front, part, rfl, opens, single⟩ := ih
      refine ⟨front, part ++ [c], List.append_assoc .., opens, ?_⟩
      intro member
      rcases List.mem_append.mp member with here | last
      · exact single here
      · exact newline (List.mem_singleton.mp last).symm

theorem endsAt_iff {passed : List Char} {place : Nat × Nat} :
    EndsAt passed place ↔ place = (newlines passed, (lastLine passed).length) := by
  constructor
  · rintro ⟨line, front, part, rfl, opens, single, column⟩
    rw [lastLine_append opens single, ← line, ← column]
  · rintro rfl
    obtain ⟨front, part, rfl, opens, single⟩ := exists_line_start passed
    exact ⟨rfl, front, part, rfl, opens, single, congrArg List.length (lastLine_append opens single)⟩

theorem endsAt_line (opens : OpensLine front) (single : '\n' ∉ part) :
    EndsAt (front ++ part) (newlines front, part.length) where
  line := by rw [newlines, newlines, List.count_append, List.count_eq_zero.mpr single, Nat.add_zero]
  column := ⟨front, part, rfl, opens, single, rfl⟩

theorem EndsAt.append {more : List Char} {first second : Nat × Nat} (early : EndsAt front first)
    (late : EndsAt (front ++ more) second) :
    first.1 < second.1 ∨ first.1 = second.1 ∧ second.2 = first.2 + more.length := by
  have lines : second.1 = first.1 + newlines more := by
    rw [late.line, early.line]
    exact List.count_append
  by_cases newline : '\n' ∈ more
  · left
    have some : 0 < newlines more := List.count_pos_iff.mpr newline
    omega
  · right
    obtain ⟨opening, part, rfl, opens, single, column⟩ := early.column
    have whole : '\n' ∉ part ++ more := fun member => (List.mem_append.mp member).elim single newline
    have none : newlines more = 0 := List.count_eq_zero.mpr newline
    rw [List.append_assoc] at late
    have same := (endsAt_iff.mp late).trans (endsAt_iff.mp (endsAt_line opens whole)).symm
    refine ⟨by omega, ?_⟩
    rw [same, column]
    exact List.length_append

private theorem EndsAt.notAfter {more : List Char} {first second : Nat × Nat} (early : EndsAt front first)
    (late : EndsAt (front ++ more) second) : NotAfter first second := by
  rcases early.append late with above | ⟨beside, column⟩
  · exact .inl above
  · exact .inr ⟨beside, by omega⟩

private theorem EndsAt.not_append {c : Char} {more : List Char} {place : Nat × Nat}
    (late : EndsAt (front ++ c :: more) place) :
    ¬EndsAt front place := by
  intro early
  rcases early.append late with above | ⟨-, column⟩
  · exact Nat.lt_irrefl _ above
  · rw [List.length_cons] at column
    omega

theorem isInside_or_passed (text : List Char) (offset : Nat) :
    IsInside text offset ∨ ∃ front, IsPassed text front offset := by
  by_cases past : width text ≤ offset
  · exact .inr ⟨text, List.prefix_rfl, past, .inr rfl⟩
  · obtain ⟨front, c, back, rfl, reached, stopped⟩ := exists_character (Nat.not_le.mp past)
    rcases Nat.eq_or_lt_of_le reached with same | behind
    · exact .inr ⟨front, List.prefix_append .., reached, .inl same⟩
    · exact .inl ⟨front, c, back, rfl, behind, stopped⟩

/-- An offset inside a character is answered with the whole text. -/
theorem IsInside.before_eq (inside : IsInside text offset) : before text offset = text := by
  obtain ⟨front, c, back, rfl, behind, stopped⟩ := inside
  have within : min offset (width (front ++ c :: back)) = offset := by
    rw [width_append, width_cons]
    omega
  have nowhere : splitAt? offset (front ++ c :: back) = none := by
    rw [splitAt?, splitWithin_append_cons (Nat.le_of_lt behind) stopped]
    exact if_neg (Nat.ne_of_lt behind)
  rw [before, within, nowhere]
  rfl

private theorem IsPassed.before_eq (passed : IsPassed text front offset) : before text offset = front := by
  obtain ⟨⟨back, rfl⟩, reached, stopped⟩ := passed
  have clamped : min offset (width (front ++ back)) = width front := by
    rcases stopped with rfl | whole
    · rw [width_append]
      omega
    · rw [← whole]
      omega
  have split : splitAt? (width front) (front ++ back) = some (front, back) := splitAt?_eq_some_iff.mpr ⟨rfl, rfl⟩
  rw [before, clamped, split]
  rfl

theorem IsInside.endsAt (inside : IsInside text offset) : EndsAt text (position text offset) := by
  apply endsAt_iff.mpr
  rw [position, inside.before_eq]

theorem IsPassed.endsAt (passed : IsPassed text front offset) : EndsAt front (position text offset) := by
  apply endsAt_iff.mpr
  rw [position, passed.before_eq]

/-- Places follow the order of offsets, as long as the first is not inside a character. -/
theorem IsPassed.notAfter {later : Nat} (passed : IsPassed text front offset) (order : offset ≤ later) :
    NotAfter (position text offset) (position text later) := by
  obtain ⟨back, rfl⟩ := passed.begins
  rcases isInside_or_passed (front ++ back) later with inside | ⟨longer, beyond⟩
  · exact passed.endsAt.notAfter inside.endsAt
  · obtain ⟨more, split⟩ := beyond.begins
    have within : width front ≤ width longer := by
      rcases beyond.stopped with same | whole
      · have := passed.reached
        omega
      · rw [whole, width_append]
        omega
    obtain ⟨gap, rfl, -⟩ := prefix_of_width_le split.symm within
    exact passed.endsAt.notAfter beyond.endsAt

end Text

namespace Problem
open Text

def heading (source : SourceId) (place : Nat × Nat) : String :=
  " file: " ++ source.path ++ ":" ++ toString (place.1 + 1) ++ ":" ++ toString (place.2 + 1) ++ "\n"

def warning (problem : Problem) (palette : Palette) : String :=
  palette.warning ++ "warning:" ++ palette.reset ++ " " ++ problem.kind.title ++ ": " ++ problem.message ++ "\n"

def excerpts (problem : Problem) (text : String) (palette : Palette) (place : Nat × Nat) : String :=
  (((shownLines text.toList)[place.1]?).map (problem.excerpt palette place)).getD ""

theorem report_eq {problem : Problem} {text : String} {place : Nat × Nat}
    (placed : position text.toList problem.span.start = place) (palette : Palette) :
    problem.report text palette =
      heading problem.source place ++ (problem.warning palette ++ problem.excerpts text palette place) := by
  unfold report heading warning excerpts
  simp only [placed, String.append_assoc]

/-- A report places its problem at the character that the problem starts with, or behind the text if it
starts there. A problem that starts inside a character is placed behind the whole text instead, which is not
the place of that character. Other than behind such a start, places follow the order of starts. -/
theorem report_placed (problem : Problem) (text : String) (palette : Palette) :
    ∃ place rest, problem.report text palette = heading problem.source place ++ rest ∧
      (∀ front c back, text.toList = front ++ c :: back → width front ≤ problem.span.start →
        problem.span.start < width front + c.utf8Size →
        (problem.span.start = width front → EndsAt front place) ∧
          (problem.span.start ≠ width front → EndsAt text.toList place ∧ ¬EndsAt front place)) ∧
      (width text.toList ≤ problem.span.start → EndsAt text.toList place) ∧
      ∀ later : Problem, problem.span.start ≤ later.span.start →
        ∃ other more, later.report text palette = heading later.source other ++ more ∧
          (IsInside text.toList problem.span.start ∨ NotAfter place other) := by
  refine ⟨_, _, report_eq rfl palette, fun front c back split reached stopped => ⟨fun first => ?_, fun behind => ?_⟩,
    fun past => ?_, fun later order => ⟨_, _, report_eq rfl palette, ?_⟩⟩
  · have passed : IsPassed text.toList front problem.span.start :=
      ⟨split ▸ List.prefix_append .., reached, .inl first.symm⟩
    exact passed.endsAt
  · have inside : IsInside text.toList problem.span.start :=
      ⟨front, c, back, split, Nat.lt_of_le_of_ne reached behind.symm, stopped⟩
    refine ⟨inside.endsAt, ?_⟩
    have late := inside.endsAt
    rw [split] at late ⊢
    exact late.not_append
  · have passed : IsPassed text.toList text.toList problem.span.start := ⟨List.prefix_rfl, past, .inr rfl⟩
    exact passed.endsAt
  · rcases isInside_or_passed text.toList problem.span.start with inside | ⟨front, passed⟩
    · exact .inl inside
    · exact .inr (passed.notAfter order)

def strayProblem (start : Nat) : Problem :=
  ⟨.unresolvedInclude, ⟨"a.tt"⟩, ⟨start, start + 1⟩, "no file"⟩

def strayText : String := "é\nb"

theorem report_placed_stray :
    (∃ place rest, (strayProblem 1).report strayText .plain = heading ⟨"a.tt"⟩ place ++ rest ∧
      EndsAt strayText.toList place ∧ ¬EndsAt [] place) ∧
    ∃ place rest, (strayProblem 2).report strayText .plain = heading ⟨"a.tt"⟩ place ++ rest ∧
      EndsAt ['é'] place ∧ ∃ other more, (strayProblem 7).report strayText .plain = heading ⟨"a.tt"⟩ other ++ more ∧
        (IsInside strayText.toList 2 ∨ NotAfter place other) := by
  obtain ⟨place, rest, reported, at_, -⟩ := report_placed (strayProblem 1) strayText .plain
  obtain ⟨second, behind, told, letter, -, later⟩ := report_placed (strayProblem 2) strayText .plain
  have inside := (at_ [] 'é' ['\n', 'b'] rfl (by decide) (by decide)).2 (by decide)
  have first := (letter ['é'] '\n' ['b'] rfl (by decide) (by decide)).1 rfl
  exact ⟨⟨place, rest, reported, inside⟩, second, behind, told, first, later (strayProblem 7) (by decide)⟩

/-- The byte that a problem starts with belongs to the letter of the first line; but the report tells the end
of the second, and of a problem that starts later it tells the first line. -/
theorem reports_step_back :
    IsInside strayText.toList 1 ∧
      (strayProblem 1).report strayText .plain =
        " file: a.tt:2:2\nwarning: Unresolved include: no file\n   |\n 2 | b\n   |  ^\n" ∧
      (strayProblem 2).report strayText .plain =
        " file: a.tt:1:2\nwarning: Unresolved include: no file\n   |\n 1 | é\n   |  ^\n" := by
  refine ⟨⟨[], 'é', ['\n', 'b'], rfl, by decide, by decide⟩, ?_, ?_⟩ <;> decide

end Problem

end TextTemplate
