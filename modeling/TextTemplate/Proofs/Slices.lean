import TextTemplate.Template

/-! What a span covers, as a splitting of the text around it. Slicing by byte offsets and
splitting into characters are the same thing read from two sides; all later statements on
ranges are made about the splitting. -/

namespace TextTemplate

namespace Text

theorem width_pos {text : List Char} (nonempty : text ≠ []) : 0 < width text := by
  cases text with
  | nil => exact absurd rfl nonempty
  | cons c rest =>
    have := Char.utf8Size_pos c
    rw [width_cons]
    omega

theorem width_toList (text : String) : width text.toList = text.utf8ByteSize := by
  have built (chars : List Char) : (String.ofList chars).utf8ByteSize = width chars := by
    induction chars with
    | nil => rfl
    | cons c rest ih => rw [String.ofList_cons, String.utf8ByteSize_append, ih]; simp
  rw [← built, String.ofList_toList]

private theorem append_inj_of_width {first second rest other : List Char}
    (same : first ++ rest = second ++ other) (wide : width first = width second) :
    first = second ∧ rest = other := by
  induction first generalizing second with
  | nil =>
    cases second with
    | nil => exact ⟨rfl, same⟩
    | cons c more =>
      have := Char.utf8Size_pos c
      simp only [width_nil, width_cons] at wide
      omega
  | cons c more ih =>
    cases second with
    | nil =>
      have := Char.utf8Size_pos c
      simp only [width_nil, width_cons] at wide
      omega
    | cons d others =>
      simp only [List.cons_append, List.cons.injEq] at same
      obtain ⟨rfl, same⟩ := same
      simp only [width_cons] at wide
      obtain ⟨rfl, rest⟩ := ih same (by omega)
      exact ⟨rfl, rest⟩

theorem prefix_of_width_le {first second rest other : List Char} (same : first ++ rest = second ++ other)
    (within : width first ≤ width second) : ∃ gap, second = first ++ gap ∧ rest = gap ++ other := by
  rcases List.append_eq_append_iff.mp same with longer | ⟨extra, rfl, rfl⟩
  · exact longer
  · cases extra with
    | nil => exact ⟨[], by simp, rfl⟩
    | cons c more =>
      have := Char.utf8Size_pos c
      rw [width_append, width_cons] at within
      omega

/-- A budget that ends inside a character, or right before one, stops in front of it. -/
theorem splitWithin_append_cons {before after : List Char} {c : Char} {budget : Nat}
    (reached : width before ≤ budget) (stopped : budget < width before + c.utf8Size) :
    splitWithin budget (before ++ c :: after) = (before, c :: after) := by
  induction before generalizing budget with
  | nil =>
    rw [List.nil_append, splitWithin, if_neg]
    simpa using stopped
  | cons d more ih =>
    rw [width_cons] at reached stopped
    rw [List.cons_append, splitWithin, if_pos (by omega), ih (by omega) (by omega)]
    rfl

theorem splitWithin_width (before after : List Char) :
    splitWithin (width before) (before ++ after) = (before, after) := by
  cases after with
  | nil =>
    rw [List.append_nil]
    induction before with
    | nil => rfl
    | cons c rest ih => rw [width_cons, splitWithin, if_pos (by omega), Nat.add_sub_cancel_left, ih]; rfl
  | cons c rest =>
    have := Char.utf8Size_pos c
    exact splitWithin_append_cons (Nat.le_refl _) (by omega)

theorem splitAt?_eq_some_iff {offset : Nat} {text before after : List Char} :
    splitAt? offset text = some (before, after) ↔ text = before ++ after ∧ offset = width before := by
  constructor
  · intro found
    simp only [splitAt?] at found
    split at found
    next exact_ =>
      have parts := splitWithin_append offset text
      rw [Option.some.inj found] at parts exact_
      exact ⟨parts.symm, exact_.symm⟩
    next => cases found
  · rintro ⟨rfl, rfl⟩
    rw [splitAt?, splitWithin_width]
    exact if_pos rfl

theorem slice?_eq_some_iff {start stop : Nat} {text part : List Char} :
    slice? start stop text = some part ↔
      ∃ before after, text = before ++ (part ++ after) ∧ start = width before ∧
        stop = width before + width part := by
  constructor
  · intro found
    simp only [slice?] at found
    split at found
    next ordered =>
      obtain ⟨⟨before, rest⟩, outer, inner⟩ := Option.bind_eq_some_iff.mp found
      obtain ⟨⟨middle, after⟩, within, rfl⟩ := Option.map_eq_some_iff.mp inner
      obtain ⟨rfl, rfl⟩ := splitAt?_eq_some_iff.mp outer
      obtain ⟨rfl, extent⟩ := splitAt?_eq_some_iff.mp within
      refine ⟨before, after, rfl, rfl, ?_⟩
      show stop = width before + width middle
      omega
    next => cases found
  · rintro ⟨before, after, rfl, rfl, rfl⟩
    have outer : splitAt? (width before) (before ++ (part ++ after)) = some (before, part ++ after) :=
      splitAt?_eq_some_iff.mpr ⟨rfl, rfl⟩
    have inner : splitAt? (width part) (part ++ after) = some (part, after) :=
      splitAt?_eq_some_iff.mpr ⟨rfl, rfl⟩
    simp [slice?, outer, inner]

def characterStart (text : List Char) (offset : Nat) : Nat :=
  width (splitWithin offset text).1

theorem characterStart_append_cons {before after : List Char} {c : Char} {offset : Nat}
    (reached : width before ≤ offset) (stopped : offset < width before + c.utf8Size) :
    characterStart (before ++ c :: after) offset = width before := by
  rw [characterStart, splitWithin_append_cons reached stopped]

theorem exists_character {text : List Char} {offset : Nat} (inside : offset < width text) :
    ∃ before c after, text = before ++ c :: after ∧ width before ≤ offset ∧
      offset < width before + c.utf8Size := by
  induction text generalizing offset with
  | nil => simp at inside
  | cons c rest ih =>
    rw [width_cons] at inside
    by_cases first : offset < c.utf8Size
    · exact ⟨[], c, rest, rfl, Nat.zero_le _, by simpa using first⟩
    · obtain ⟨before, d, after, rfl, reached, stopped⟩ := @ih (offset - c.utf8Size) (by omega)
      refine ⟨c :: before, d, after, rfl, ?_, ?_⟩
      all_goals rw [width_cons]; omega

end Text

namespace Span

theorem contains_iff {span : Span} {offset : Nat} :
    span.contains offset = true ↔ span.start ≤ offset ∧ offset < span.stop := by
  rw [contains, Bool.and_eq_true, decide_eq_true_eq, decide_eq_true_eq]

structure IsWord (span : Span) : Prop where
  start : span.start < offsetBound
  stop : span.stop < offsetBound

/-- In `text`, the span covers exactly `part`. -/
def Covers (span : Span) (text part : List Char) : Prop :=
  ∃ before after, text = before ++ (part ++ after) ∧ span.start = Text.width before ∧
    span.stop = Text.width before + Text.width part

theorem slice?_of_covers {span : Span} {text : String} {part : List Char}
    (covers : span.Covers text.toList part) : span.slice? text = some (String.ofList part) := by
  rw [slice?, Text.slice?_eq_some_iff.mpr covers]
  rfl

variable {span : Span} {text part : List Char}

theorem Covers.stop_le (covers : span.Covers text part) : span.stop ≤ Text.width text := by
  obtain ⟨before, after, rfl, -, stop⟩ := covers
  simp only [Text.width_append]
  omega

theorem Covers.stop_eq (covers : span.Covers text part) :
    span.stop = span.start + Text.width part := by
  obtain ⟨before, after, -, start, stop⟩ := covers
  omega

/-- Narrowing a span to part of what it covers. -/
theorem Covers.narrow {first middle last : List Char}
    (covers : span.Covers text (first ++ (middle ++ last))) :
    (span.narrow (Text.width first) (Text.width first + Text.width middle)).Covers text middle := by
  obtain ⟨before, after, rfl, start, -⟩ := covers
  refine ⟨before ++ first, last ++ after, by simp, ?_, ?_⟩
  · rw [Span.narrow, Text.width_append, start]
  · rw [Span.narrow, Text.width_append, start, Nat.add_assoc]

theorem Covers.join {other : Span} {next : List Char} (covers : span.Covers text part)
    (follows : other.Covers text next) (touching : span.stop = other.start) :
    Covers ⟨span.start, other.stop⟩ text (part ++ next) := by
  obtain ⟨before, after, split, start, stop⟩ := covers
  obtain ⟨before', after', split', start', stop'⟩ := follows
  have same : (before ++ part) ++ after = before' ++ (next ++ after') := by
    rw [List.append_assoc, ← split, split']
  obtain ⟨rfl, rfl⟩ := Text.append_inj_of_width same (by rw [Text.width_append]; omega)
  refine ⟨before, after', by simpa using split, start, ?_⟩
  simp only [Text.width_append] at stop' ⊢
  omega

theorem Covers.contains_iff (covers : span.Covers text part) {offset : Nat} :
    span.contains offset = true ↔ span.start ≤ offset ∧ offset < span.start + Text.width part := by
  rw [Span.contains_iff, covers.stop_eq]

end Span

end TextTemplate
