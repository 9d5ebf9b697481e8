import Mathlib.Data.List.Basic
import TextTemplate.Macros

/-! The references of a text. From left to right, a text is read in one way only: in front of each reference
there is no other opening, its name ends at the first bracket that closes, and behind the last one no opening
is closed any more. Expanding the text puts the values in for the names that are known. It leaves the rest as
it is written, and a value is not read again. -/

namespace TextTemplate.Macros

def opening : List Char := ['$', '(']

/-- With an opening behind it, the text has that one only. -/
def OpensLast (front : List Char) : Prop :=
  ∀ before after, front ++ opening = before ++ (opening ++ after) → after = []

/-- Behind the first opening of the text, if it has any, nothing closes. -/
def Unclosed (rest : List Char) : Prop :=
  ∀ front after, rest = front ++ (opening ++ after) → OpensLast front → ')' ∉ after

/-- A reference in a text, and what is in front of it, from the reference before or from the start. -/
@[ext] structure Reference where
  front : List Char
  name : List Char
  opens : OpensLast front
  closes : ')' ∉ name

namespace Reference

def text (given : Reference) : List Char :=
  given.front ++ reference given.name

theorem text_append (given : Reference) (rest : List Char) :
    given.text ++ rest = given.front ++ (opening ++ (given.name ++ ')' :: rest)) := by
  simp [text, reference, opening]

/-- The reference with the value of its name put in; one without a value stays. -/
def expanded (macros : Macros) (given : Reference) : List Char :=
  given.front ++ ((macros.find? (String.ofList given.name)).map String.toList).getD (reference given.name)

end Reference

/-- A text, read from left to right. -/
structure Reading (text : List Char) where
  references : List Reference
  rest : List Char
  spelled : text = references.flatMap Reference.text ++ rest
  unclosed : Unclosed rest

def Reading.expanded {text : List Char} (macros : Macros) (reading : Reading text) : List Char :=
  reading.references.flatMap (Reference.expanded macros) ++ reading.rest

theorem closing?_eq_some_iff {text name rest : List Char} :
    closing? text = some (name, rest) ↔ text = name ++ ')' :: rest ∧ ')' ∉ name := by
  induction text generalizing name with
  | nil => simp [closing?]
  | cons c tail ih =>
    rw [closing?]
    split
    next closes =>
      subst closes
      cases name with
      | nil => simp [eq_comm]
      | cons d more =>
        constructor
        · intro found
          cases found
        · rintro ⟨same, absent⟩
          cases same
          exact absurd List.mem_cons_self absent
    next other =>
      constructor
      · intro found
        obtain ⟨⟨inner, behind⟩, closed, same⟩ := Option.map_eq_some_iff.mp found
        cases same
        obtain ⟨rfl, absent⟩ := ih.mp closed
        exact ⟨rfl, List.not_mem_cons_of_ne_of_not_mem (Ne.symm other) absent⟩
      · rintro ⟨same, absent⟩
        cases name with
        | nil =>
          cases same
          exact absurd rfl other
        | cons d more =>
          cases same
          rw [ih.mpr ⟨rfl, List.not_mem_of_not_mem_cons absent⟩]
          rfl

private theorem closing?_eq_none_iff {text : List Char} : closing? text = none ↔ ')' ∉ text := by
  constructor
  · intro open_ member
    obtain ⟨name, rest, rfl, absent⟩ := List.eq_append_cons_of_mem member
    cases open_.symm.trans (closing?_eq_some_iff.mpr ⟨rfl, absent⟩)
  · intro absent
    cases closed : closing? text with
    | none => rfl
    | some parts =>
      obtain ⟨rfl, -⟩ := closing?_eq_some_iff.mp closed
      exact absurd (List.mem_append_right _ List.mem_cons_self) absent

theorem OpensLast.unique {front other after behind : List Char} (first : OpensLast front) (second : OpensLast other)
    (same : front ++ (opening ++ after) = other ++ (opening ++ behind)) : front = other ∧ after = behind := by
  rw [← List.append_assoc, ← List.append_assoc] at same
  have fronts : front ++ opening = other ++ opening := by
    rcases List.append_eq_append_iff.mp same with ⟨more, longer, -⟩ | ⟨more, longer, -⟩
    · rw [List.append_assoc] at longer
      rw [longer, second front more longer, List.append_nil]
    · rw [List.append_assoc] at longer
      rw [longer, first other more longer, List.append_nil]
  rw [fronts] at same
  exact ⟨List.append_cancel_right fronts, List.append_cancel_left same⟩

theorem opensLast_nil : OpensLast [] := by
  intro before after same
  cases before with
  | nil => exact List.append_right_eq_self.mp same.symm
  | cons c more =>
    have length := congrArg List.length same
    simp only [opening, List.length_append, List.length_cons, List.length_nil] at length
    omega

private theorem OpensLast.of_cons {c : Char} {front : List Char} (last : OpensLast (c :: front)) : OpensLast front := by
  intro before after same
  exact last (c :: before) after (congrArg (c :: ·) same)

private theorem OpensLast.cons {c : Char} {front : List Char} (last : OpensLast front)
    (other : ∀ after, c = '$' → front ++ opening = '(' :: after → False) : OpensLast (c :: front) := by
  intro before after same
  cases before with
  | nil =>
    obtain ⟨dollar, bracket⟩ := List.cons.inj same
    exact (other after dollar bracket).elim
  | cons d more => exact last more after (List.cons.inj same).2

namespace Reading
variable {macros : Macros} {text : List Char}

/-- Where no name is known, the references stay. -/
theorem expanded_unknown (reading : Reading text)
    (unknown : ∀ given ∈ reading.references, macros.find? (String.ofList given.name) = none) :
    reading.expanded macros = text := by
  have same : ∀ given ∈ reading.references, given.expanded macros = given.text := by
    intro given member
    rw [Reference.expanded, unknown given member]
    rfl
  rw [expanded, List.flatMap_congr same, ← reading.spelled]

private theorem exists_nil : ∃ reading : Reading [], reading.expanded macros = [] := by
  refine ⟨⟨[], [], rfl, ?_⟩, rfl⟩
  intro front after same
  cases front <;> cases same

private theorem exists_unclosed (absent : ')' ∉ text) :
    ∃ reading : Reading (opening ++ text), reading.expanded macros = opening ++ text := by
  refine ⟨⟨[], opening ++ text, rfl, ?_⟩, rfl⟩
  intro front after same last
  obtain ⟨-, rfl⟩ := opensLast_nil.unique last same
  exact absent

private theorem exists_reference (reading : Reading text) {name : List Char} (absent : ')' ∉ name) :
    ∃ longer : Reading (reference name ++ text), longer.expanded macros =
      ((macros.find? (String.ofList name)).map String.toList).getD (reference name) ++ reading.expanded macros := by
  refine ⟨⟨⟨[], name, opensLast_nil, absent⟩ :: reading.references, reading.rest, ?_, reading.unclosed⟩, ?_⟩
  · rw [List.flatMap_cons, List.append_assoc, ← reading.spelled]
    rfl
  · rw [expanded, List.flatMap_cons, List.append_assoc]
    rfl

private theorem exists_cons (reading : Reading text) {c : Char}
    (other : ∀ after, c = '$' → text = '(' :: after → False) :
    ∃ longer : Reading (c :: text), longer.expanded macros = c :: reading.expanded macros := by
  obtain ⟨references, rest, rfl, unclosed⟩ := reading
  cases references with
  | nil =>
    refine ⟨⟨[], c :: rest, rfl, ?_⟩, rfl⟩
    intro front after same last
    cases front with
    | nil =>
      obtain ⟨dollar, behind⟩ := List.cons.inj same
      exact (other after dollar behind).elim
    | cons d front =>
      obtain ⟨-, behind⟩ := List.cons.inj same
      exact unclosed front after behind last.of_cons
  | cons first more =>
    have begins (after : List Char) (dollar : c = '$') (bracket : first.front ++ opening = '(' :: after) : False := by
      apply other _ dollar
      rw [List.flatMap_cons, List.append_assoc, first.text_append, ← List.append_assoc, bracket]
      rfl
    exact ⟨⟨⟨c :: first.front, first.name, first.opens.cons begins, first.closes⟩ :: more, rest, rfl, unclosed⟩, rfl⟩

end Reading

theorem exists_reading (macros : Macros) (text : List Char) :
    ∃ reading : Reading text, macros.expandChars text = reading.expanded macros := by
  fun_induction expandChars macros text with
  | case1 =>
    obtain ⟨reading, expanded⟩ : ∃ reading : Reading [], reading.expanded macros = [] := Reading.exists_nil
    exact ⟨reading, expanded.symm⟩
  | case2 after name rest closed ih =>
    obtain ⟨reading, expanded⟩ := ih
    obtain ⟨rfl, absent⟩ := closing?_eq_some_iff.mp closed
    obtain ⟨longer, same⟩ := reading.exists_reference absent
    have spelled : '$' :: '(' :: (name ++ ')' :: rest) = reference name ++ rest := by
      simp [reference]
    rw [spelled, expanded, ← same]
    exact ⟨longer, rfl⟩
  | case3 after unclosed =>
    obtain ⟨reading, expanded⟩ := Reading.exists_unclosed (closing?_eq_none_iff.mp unclosed)
    exact ⟨reading, expanded.symm⟩
  | case4 c rest other ih =>
    obtain ⟨reading, expanded⟩ := ih
    obtain ⟨longer, same⟩ := reading.exists_cons fun after dollar bracket => other after dollar bracket
    rw [expanded, ← same]
    exact ⟨longer, rfl⟩

theorem expandChars_eq {macros : Macros} {text : List Char} (literal : ¬opening <:+: text) :
    macros.expandChars text = text := by
  obtain ⟨reading, expanded⟩ := exists_reading macros text
  rw [expanded]
  apply reading.expanded_unknown
  intro given member
  obtain ⟨before, after, split⟩ := List.append_of_mem member
  refine absurd ⟨before.flatMap Reference.text ++ given.front, ?_⟩ literal
  refine ⟨given.name ++ ')' :: (after.flatMap Reference.text ++ reading.rest), ?_⟩
  conv_rhs => rw [reading.spelled, split, List.flatMap_append, List.flatMap_cons, List.append_assoc,
    List.append_assoc, given.text_append]
  simp only [List.append_assoc]

namespace Reading
variable {text : List Char}

private theorem not_reference {rest behind : List Char} (unclosed : Unclosed rest) (given : Reference) :
    rest ≠ given.text ++ behind := by
  intro same
  rw [given.text_append] at same
  exact unclosed _ _ same given.opens (List.mem_append_right _ List.mem_cons_self)

/-- Texts that begin with a reference begin with the same one if they are the same. -/
theorem reference_unique {given other : Reference} {behind more : List Char}
    (same : given.text ++ behind = other.text ++ more) : given = other ∧ behind = more := by
  rw [given.text_append, other.text_append] at same
  obtain ⟨fronts, after⟩ := given.opens.unique other.opens same
  have closed : closing? (other.name ++ ')' :: more) = some (given.name, behind) :=
    closing?_eq_some_iff.mpr ⟨after.symm, given.closes⟩
  have parts := closed.symm.trans (closing?_eq_some_iff.mpr ⟨rfl, other.closes⟩)
  obtain ⟨names, rest⟩ := Prod.mk.inj (Option.some.inj parts)
  exact ⟨Reference.ext fronts names, rest⟩

private theorem eq (first second : Reading text) : first = second := by
  obtain ⟨references, rest, spelled, unclosed⟩ := first
  obtain ⟨others, last, again, open_⟩ := second
  induction references generalizing text others with
  | nil =>
    cases others with
    | nil =>
      cases spelled.symm.trans again
      rfl
    | cons other others =>
      rw [List.flatMap_cons, List.append_assoc] at again
      exact absurd (spelled.symm.trans again) (not_reference unclosed other)
  | cons given references ih =>
    rw [List.flatMap_cons, List.append_assoc] at spelled
    cases others with
    | nil => exact absurd (again.symm.trans spelled) (not_reference open_ given)
    | cons other others =>
      rw [List.flatMap_cons, List.append_assoc] at again
      obtain ⟨rfl, behind⟩ := reference_unique (spelled.symm.trans again)
      cases ih rfl others behind
      rfl

end Reading

/-- A text has one reading. Expanding it puts the values in for the names of its references that are known,
and leaves the other references, and all that is not in a reference, as they are; the values are put in as they
are, whatever is written in them. A text with no name that is known stays the same. -/
theorem expand_reading (text : String) : ∃ reading : Reading text.toList, (∀ other, other = reading) ∧
    ∀ macros : Macros, macros.expand text = String.ofList (reading.expanded macros) ∧
      ((∀ given ∈ reading.references, macros.find? (String.ofList given.name) = none) →
        macros.expand text = text) := by
  obtain ⟨reading, -⟩ := exists_reading empty text.toList
  refine ⟨reading, fun other => other.eq reading, fun macros => ?_⟩
  obtain ⟨other, expanded⟩ := exists_reading macros text.toList
  cases other.eq reading
  have whole : macros.expand text = String.ofList (reading.expanded macros) := congrArg String.ofList expanded
  refine ⟨whole, fun unknown => ?_⟩
  rw [whole, reading.expanded_unknown unknown, String.ofList_toList]

example : (ofList [("a", "$(b)"), ("b", "c")]).expand "$(a)$($(b)$(b" = "$(b)$($(b)$(b" := by decide +kernel

end TextTemplate.Macros
