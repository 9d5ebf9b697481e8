import TextTemplate.Json.Token
import TextTemplate.Proofs.Boundaries
import TextTemplate.Text.Utf16

/-! Texts as editors index them: encoded in UTF-16, where a character above the basic plane is a pair
of surrogates, and cut between two units. Between the units of two characters, the cut is what stands
between them. -/

namespace TextTemplate.Text

/-- The units of one character. -/
def utf16Char (c : Char) : List UInt16 :=
  if 0x10000 ≤ c.toNat then
    [.ofNat (0xd800 + (c.toNat - 0x10000) / 0x400), .ofNat (0xdc00 + (c.toNat - 0x10000) % 0x400)]
  else
    [.ofNat c.toNat]

def utf16 (text : List Char) : List UInt16 :=
  text.flatMap utf16Char

/-- The text of some units, unless half of a pair of surrogates stands alone. -/
def decodeUtf16? (codes : List UInt16) : Option (List Char) :=
  Json.decodeCodes? (codes.map UInt16.toNat)

/-- The text between two offsets in UTF-16 units. -/
def utf16Slice? (text : String) (start stop : Nat) : Option String :=
  (decodeUtf16? ((utf16 text.toList).extract start stop)).map String.ofList

@[simp] theorem utf16_append (left right : List Char) : utf16 (left ++ right) = utf16 left ++ utf16 right :=
  List.flatMap_append

theorem utf16_length (text : List Char) : (utf16 text).length = units text := by
  induction text with
  | nil => rfl
  | cons c rest ih =>
    have one : (utf16Char c).length = unitsOf c := by
      unfold utf16Char unitsOf
      split <;> rfl
    rw [utf16, List.flatMap_cons, List.length_append, one, units]
    exact congrArg (unitsOf c + ·) ih

theorem toNat_valid (c : Char) : c.toNat < 0xd800 ∨ 0xdfff < c.toNat ∧ c.toNat < 0x110000 :=
  c.valid

private theorem decodeUtf16?_basic {c : Char} (basic : c.toNat < 0x10000) (codes : List UInt16) :
    decodeUtf16? (.ofNat c.toNat :: codes) = (decodeUtf16? codes).map (c :: ·) := by
  have code : (UInt16.ofNat c.toNat).toNat = c.toNat := UInt16.toNat_ofNat_of_lt' basic
  have high : Json.isHighSurrogate c.toNat = false := by
    have := toNat_valid c
    rw [Json.isHighSurrogate, Bool.and_eq_false_iff, decide_eq_false_iff_not, decide_eq_false_iff_not]
    omega
  have low : Json.isLowSurrogate c.toNat = false := by
    have := toNat_valid c
    rw [Json.isLowSurrogate, Bool.and_eq_false_iff, decide_eq_false_iff_not, decide_eq_false_iff_not]
    omega
  cases codes with
  | nil => simp [decodeUtf16?, Json.decodeCodes?, code, high, low]
  | cons next rest => simp [decodeUtf16?, Json.decodeCodes?, code, high, low]

private theorem decodeUtf16?_pair {c : Char} (astral : 0x10000 ≤ c.toNat) (codes : List UInt16) :
    decodeUtf16? (.ofNat (0xd800 + (c.toNat - 0x10000) / 0x400) ::
      .ofNat (0xdc00 + (c.toNat - 0x10000) % 0x400) :: codes) = (decodeUtf16? codes).map (c :: ·) := by
  have bound := toNat_valid c
  have first : (UInt16.ofNat (0xd800 + (c.toNat - 0x10000) / 0x400)).toNat =
      0xd800 + (c.toNat - 0x10000) / 0x400 := UInt16.toNat_ofNat_of_lt' (by show _ < 65536; omega)
  have second : (UInt16.ofNat (0xdc00 + (c.toNat - 0x10000) % 0x400)).toNat =
      0xdc00 + (c.toNat - 0x10000) % 0x400 := UInt16.toNat_ofNat_of_lt' (by show _ < 65536; omega)
  have high : Json.isHighSurrogate (0xd800 + (c.toNat - 0x10000) / 0x400) = true := by
    rw [Json.isHighSurrogate, Bool.and_eq_true, decide_eq_true_eq, decide_eq_true_eq]
    omega
  have low : Json.isLowSurrogate (0xdc00 + (c.toNat - 0x10000) % 0x400) = true := by
    rw [Json.isLowSurrogate, Bool.and_eq_true, decide_eq_true_eq, decide_eq_true_eq]
    omega
  have paired : Json.pairedChar (0xd800 + (c.toNat - 0x10000) / 0x400)
      (0xdc00 + (c.toNat - 0x10000) % 0x400) = c := by
    rw [Json.pairedChar]
    have code : 0x10000 + (0xd800 + (c.toNat - 0x10000) / 0x400 - 0xd800) * 0x400 +
        (0xdc00 + (c.toNat - 0x10000) % 0x400 - 0xdc00) = c.toNat := by omega
    rw [code, Char.ofNat_toNat]
  simp only [decodeUtf16?, List.map_cons, Json.decodeCodes?, first, second, high, low, paired, if_true]

private theorem decodeUtf16?_utf16 (text : List Char) : decodeUtf16? (utf16 text) = some text := by
  induction text with
  | nil => rfl
  | cons c rest ih =>
    rw [utf16, List.flatMap_cons, utf16Char]
    rw [utf16] at ih
    split
    next astral =>
      rw [List.cons_append, List.cons_append, List.nil_append, decodeUtf16?_pair astral, ih]
      rfl
    next basic =>
      rw [List.cons_append, List.nil_append, decodeUtf16?_basic (Nat.not_le.mp basic), ih]
      rfl

private theorem utf16_extract (before part after : List Char) :
    (utf16 (before ++ (part ++ after))).extract (units before) (units before + units part) = utf16 part := by
  rw [List.extract_eq_take_drop, Nat.add_sub_cancel_left, utf16_append, utf16_append, ← utf16_length before,
    List.drop_left, ← utf16_length part, List.take_left]

section
variable {text : String} {front part back : List Char} {first last : Nat}

theorem LongestWithin.utf16Offset_eq (longest : LongestWithin text.toList front first) :
    utf16Offset text first = units front := by
  rw [utf16Offset, (longestWithin_splitWithin first text.toList).unique longest]

/-- What two longest parts have between them is encoded between the answers. -/
theorem utf16Offset_between (split : text.toList = front ++ (part ++ back))
    (start : LongestWithin text.toList front first) (stop : LongestWithin text.toList (front ++ part) last) :
    (utf16 text.toList).extract (utf16Offset text first) (utf16Offset text last) = utf16 part ∧
      utf16Slice? text (utf16Offset text first) (utf16Offset text last) = some (.ofList part) := by
  have encoded : (utf16 text.toList).extract (utf16Offset text first) (utf16Offset text last) = utf16 part := by
    rw [start.utf16Offset_eq, stop.utf16Offset_eq, units_append, split, utf16_extract]
  refine ⟨encoded, ?_⟩
  rw [utf16Slice?, encoded, decodeUtf16?_utf16]
  rfl

end

/-- Cutting a text in units between the ends of a span gives what the span covers in bytes. -/
theorem utf16Slice?_of_covers {span : Span} {text : String} {part : List Char}
    (covers : span.Covers text.toList part) :
    utf16Slice? text (utf16Offset text span.start) (utf16Offset text span.stop) = some (.ofList part) := by
  obtain ⟨before, after, split, start, stop⟩ := covers
  have around : text.toList = (before ++ part) ++ after := by rw [split, List.append_assoc]
  have first : LongestWithin text.toList before span.start := by
    rw [split, start]
    exact longestWithin_width before (part ++ after)
  have last : LongestWithin text.toList (before ++ part) span.stop := by
    rw [around, stop, ← width_append]
    exact longestWithin_width (before ++ part) after
  exact (utf16Offset_between split first last).2

end TextTemplate.Text
