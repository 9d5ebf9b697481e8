import TextTemplate.Proofs.Utf16Slices

/-! Byte offsets as editors get them, in UTF-16 units. An offset is answered with the number of units of the
longest leading part of the text that it leaves room for, so the answer is between two characters, and what
stands between two answers is what stands between their offsets. -/

namespace TextTemplate.Text

/-- In front of the unit numbered `place` there is one half of a pair of surrogates, and behind it the other. -/
def CutsPair (codes : List UInt16) (place : Nat) : Prop :=
  ∃ front high low back, codes = front ++ high :: low :: back ∧ place = front.length + 1 ∧
    Json.isHighSurrogate high.toNat = true ∧ Json.isLowSurrogate low.toNat = true

private theorem utf16_head_not_low {text : List Char} {code : UInt16} {codes : List UInt16}
    (begins : utf16 text = code :: codes) : Json.isLowSurrogate code.toNat = false := by
  cases text with
  | nil => cases begins
  | cons c rest =>
    have valid := toNat_valid c
    rw [utf16, List.flatMap_cons, utf16Char] at begins
    rw [Json.isLowSurrogate, Bool.and_eq_false_iff, decide_eq_false_iff_not, decide_eq_false_iff_not]
    split at begins
    next astral =>
      obtain ⟨rfl, -⟩ := List.cons.inj begins
      rw [UInt16.toNat_ofNat_of_lt' (by show _ < 65536; omega)]
      omega
    next basic =>
      obtain ⟨rfl, -⟩ := List.cons.inj begins
      rw [UInt16.toNat_ofNat_of_lt' (by show _ < 65536; omega)]
      omega

private theorem not_cutsPair (front back : List Char) : ¬CutsPair (utf16 (front ++ back)) (units front) := by
  rintro ⟨codes, high, low, more, split, place, -, second⟩
  rw [utf16_append, List.append_cons] at split
  have long : (utf16 front).length = (codes ++ [high]).length := by
    rw [utf16_length, place, List.length_append, List.length_singleton]
  obtain ⟨-, behind⟩ := List.append_inj split long
  rw [utf16_head_not_low behind] at second
  cases second

/-- Of the leading runs of units, just one encodes a leading part of the text. -/
theorem take_utf16_eq_iff {front back : List Char} {count : Nat} (within : count ≤ (utf16 (front ++ back)).length) :
    (utf16 (front ++ back)).take count = utf16 front ↔ count = units front := by
  constructor
  · intro taken
    have long := congrArg List.length taken
    rw [List.length_take, Nat.min_eq_left within, utf16_length] at long
    exact long
  · rintro rfl
    rw [utf16_append, ← utf16_length front, List.take_left]

section
variable {text : String} {front back : List Char} {offset : Nat}

private theorem utf16Offset_le (split : text.toList = front ++ back)
    (longest : LongestWithin text.toList front offset) :
    utf16Offset text offset ≤ (utf16 text.toList).length := by
  rw [longest.utf16Offset_eq, utf16_length, split, units_append]
  exact Nat.le_add_right _ _

private theorem utf16Offset_mono {last : Nat} (order : offset ≤ last) :
    utf16Offset text offset ≤ utf16Offset text last := by
  obtain ⟨front, start⟩ := exists_longestWithin offset text.toList
  obtain ⟨longer, stop⟩ := exists_longestWithin last text.toList
  obtain ⟨part, rfl⟩ := start.prefix_of_le stop order
  rw [start.utf16Offset_eq, stop.utf16Offset_eq, units_append]
  exact Nat.le_add_right _ _

end

/-- An offset in bytes leads to the number of units that encode the longest leading part of the text with no
more bytes; that part ends at the boundary that a search back from the offset finds. The number is never
inside a pair of surrogates, and it grows with the offset up to all units of the text. Between the numbers for
two offsets stands what is between the boundaries that these are rounded down to. -/
theorem utf16Offset_encodes (text : String) :
    (∀ offset, ∃ front, LongestWithin text.toList front offset ∧
      width front = boundaryBack text.toList (min offset text.utf8ByteSize) ∧
      utf16Offset text offset ≤ (utf16 text.toList).length ∧
      (∀ count ≤ (utf16 text.toList).length,
        (utf16 text.toList).take count = utf16 front ↔ count = utf16Offset text offset) ∧
      ¬CutsPair (utf16 text.toList) (utf16Offset text offset)) ∧
    (∀ first last, first ≤ last → utf16Offset text first ≤ utf16Offset text last) ∧
    (∀ offset, text.utf8ByteSize ≤ offset → utf16Offset text offset = (utf16 text.toList).length) ∧
    ∀ first last, first ≤ last → ∃ front part back, text.toList = front ++ (part ++ back) ∧
      LongestWithin text.toList front first ∧ LongestWithin text.toList (front ++ part) last ∧
      (utf16 text.toList).extract (utf16Offset text first) (utf16Offset text last) = utf16 part ∧
      utf16Slice? text (utf16Offset text first) (utf16Offset text last) = some (.ofList part) := by
  refine ⟨fun offset => ?_, fun _ _ => utf16Offset_mono, fun offset past => ?_, fun first last order => ?_⟩
  · obtain ⟨front, longest⟩ := exists_longestWithin offset text.toList
    obtain ⟨back, split⟩ := longest.begins
    refine ⟨front, longest, ?_, utf16Offset_le split.symm longest, fun count within => ?_, ?_⟩
    · rw [← width_toList, longest.clamped.boundaryBack_eq]
    · rw [← split] at within ⊢
      rw [longest.utf16Offset_eq, take_utf16_eq_iff within]
    · rw [longest.utf16Offset_eq, ← split]
      exact not_cutsPair front back
  · have whole := longestWithin_whole (Nat.le_trans (Nat.le_of_eq (width_toList text)) past)
    rw [whole.utf16Offset_eq, utf16_length]
  · obtain ⟨front, start⟩ := exists_longestWithin first text.toList
    obtain ⟨longer, stop⟩ := exists_longestWithin last text.toList
    obtain ⟨part, rfl⟩ := start.prefix_of_le stop order
    obtain ⟨back, split⟩ := stop.begins
    rw [List.append_assoc] at split
    exact ⟨front, part, back, split.symm, start, stop, utf16Offset_between split.symm start stop⟩

def greeting : String := "Hé 👋!"

theorem utf16Offset_encodes_greeting :
    (2 ≤ 6 ∧ utf16Offset greeting 2 = 1 ∧ utf16Offset greeting 6 = 3 ∧
      ∃ front part back, greeting.toList = front ++ (part ++ back) ∧ LongestWithin greeting.toList front 2 ∧
        LongestWithin greeting.toList (front ++ part) 6 ∧ (utf16 greeting.toList).extract 1 3 = utf16 part ∧
        utf16Slice? greeting 1 3 = some (.ofList part)) ∧
    greeting.utf8ByteSize ≤ 100 ∧ utf16Offset greeting 100 = (utf16 greeting.toList).length := by
  obtain ⟨-, -, whole, between⟩ := utf16Offset_encodes greeting
  have letter : utf16Offset greeting 2 = 1 := by decide
  have sign : utf16Offset greeting 6 = 3 := by decide
  have past : greeting.utf8ByteSize ≤ 100 := by decide
  have slice := between 2 6 (by decide)
  rw [letter, sign] at slice
  exact ⟨⟨by decide, letter, sign, slice⟩, past, whole 100 past⟩

end TextTemplate.Text
