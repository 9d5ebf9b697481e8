import Mathlib.Data.List.Basic
import Mathlib.Data.List.TakeWhile
import TextTemplate.Projection
import TextTemplate.Proofs.EscapedUnits

/-! Offsets inside one projection of escaped text. Whatever literal is cut into units, the units advance on
both sides at once, so what is found among them keeps the order of what was looked for. Where the literal
was written by `escape`, every offset of either range is carried into the other one, to the beginning of
its character or of its unit. -/

namespace TextTemplate
open Text

namespace Code

private theorem splitUnit_ne_nil {literal : List Char} (nonempty : literal ≠ []) : (splitUnit literal).1 ≠ [] := by
  fun_cases splitUnit literal with
  | case4 => exact absurd rfl nonempty
  | _ => exact List.cons_ne_nil _ _

private theorem unescapeChars_ne_nil {literal : List Char} (nonempty : literal ≠ []) : unescapeChars literal ≠ [] := by
  fun_cases unescapeChars literal with
  | case1 => exact absurd rfl nonempty
  | case2 after digits => cases namedChar? digits <;> simp
  | case3 c rest => cases shortEscape? c <;> simp
  | case4 c rest => exact List.cons_ne_nil _ _

def Before (first second : Nat × Nat) : Prop := first.1 < second.1 ∧ first.2 < second.2

theorem unitOffsetsFrom_advance (written read : Nat) (literal : List Char) :
    (unitOffsetsFrom written read literal).Pairwise Before ∧
      ∀ unit ∈ unitOffsetsFrom written read literal, written ≤ unit.1 ∧ read ≤ unit.2 := by
  fun_induction unitOffsetsFrom written read literal with
  | case1 written read => exact ⟨List.pairwise_singleton _ _, by simp⟩
  | case2 written read c rest ih =>
    obtain ⟨advance, behind⟩ := ih
    have taken := splitUnit_ne_nil (List.cons_ne_nil c rest)
    have wide := width_pos taken
    have long := width_pos (unescapeChars_ne_nil taken)
    refine ⟨List.pairwise_cons.mpr ⟨fun unit member => ?_, advance⟩, fun unit member => ?_⟩
    · obtain ⟨first, second⟩ := behind unit member
      exact ⟨by omega, by omega⟩
    · rcases List.mem_cons.mp member with rfl | later
      · exact ⟨Nat.le_refl _, Nat.le_refl _⟩
      · obtain ⟨first, second⟩ := behind unit later
        omega

/-- Of a list in order, the last item that one bound lets pass does not come behind the last one that a
weaker bound lets pass. -/
theorem last_takeWhile_le {α : Type} {relation : α → α → Prop} {items : List α} (ordered : items.Pairwise relation)
    {strong weak : α → Bool} (implies : ∀ item, strong item = true → weak item = true) {first second : α}
    (here : (items.takeWhile strong).getLast? = some first) (there : (items.takeWhile weak).getLast? = some second) :
    first = second ∨ relation first second := by
  have both : items.takeWhile strong = (items.takeWhile weak).takeWhile strong := by
    rw [List.takeWhile_takeWhile]
    congr 1
    funext item
    cases passed : strong item with
    | true => simp [implies item passed]
    | false => simp
  obtain ⟨gap, split⟩ := both ▸ List.takeWhile_prefix strong (l := items.takeWhile weak)
  have apart := (ordered.sublist (List.takeWhile_sublist weak))
  rw [← split] at there apart
  cases gap with
  | nil =>
    rw [List.append_nil, here] at there
    exact .inl (Option.some.inj there)
  | cons item more =>
    rw [List.getLast?_append_of_ne_nil _ (List.cons_ne_nil _ _)] at there
    exact .inr ((List.pairwise_append.mp apart).2.2 first (List.mem_of_getLast? here) second
      (List.mem_of_getLast? there))

section
variable {literal : List Char} {first second : Nat} {unit other : Nat × Nat}

theorem unitWritten_le (forward : first ≤ second) (here : unitWritten literal first = some unit)
    (there : unitWritten literal second = some other) : unit.2 ≤ other.2 := by
  rcases last_takeWhile_le (unitOffsetsFrom_advance 0 0 literal).1 (fun item passed => by
    simp only [decide_eq_true_eq] at passed ⊢
    omega) here there with rfl | before
  · exact Nat.le_refl _
  · exact Nat.le_of_lt before.2

theorem unitRead_le (forward : first ≤ second) (here : unitRead literal first = some unit)
    (there : unitRead literal second = some other) : unit.1 ≤ other.1 := by
  rcases last_takeWhile_le (unitOffsetsFrom_advance 0 0 literal).1 (fun item passed => by
    simp only [decide_eq_true_eq] at passed ⊢
    omega) here there with rfl | before
  · exact Nat.le_refl _
  · exact Nat.le_of_lt before.1

end

def unitStart : List Char → Nat → Nat
  | [], _ => 0
  | c :: rest, offset =>
    if offset < width (escapeChar c) then 0
    else width (escapeChar c) + unitStart rest (offset - width (escapeChar c))

private theorem unitStart_append_cons {before after : List Char} {c : Char} {offset : Nat}
    (reached : width (escapeChars before) ≤ offset)
    (stopped : offset < width (escapeChars before) + width (escapeChar c)) :
    unitStart (before ++ c :: after) offset = width (escapeChars before) := by
  induction before generalizing offset with
  | nil =>
    rw [escapeChars_nil, width_nil, Nat.zero_add] at stopped
    rw [List.nil_append, unitStart, if_pos stopped, escapeChars_nil, width_nil]
  | cons d more ih =>
    rw [escapeChars_cons, width_append] at reached stopped
    rw [List.cons_append, unitStart, if_neg (by omega), ih (by omega) (by omega), escapeChars_cons, width_append]

end Code

theorem Span.covers_of_slice? {span : Span} {text part : String} (holds : span.slice? text = some part) :
    span.Covers text.toList part.toList := by
  obtain ⟨letters, found, rfl⟩ := Option.map_eq_some_iff.mp holds
  rw [String.toList_ofList]
  exact Text.slice?_eq_some_iff.mp found

private theorem addOffsets_eq_ok_iff {base distance offset : Nat} :
    addOffsets base distance = .ok offset ↔ base + distance = offset ∧ offset < offsetBound := by
  rw [addOffsets]
  split
  next room =>
    constructor
    · intro sum
      cases sum
      exact ⟨rfl, room⟩
    · rintro ⟨rfl, -⟩
      rfl
  next far =>
    refine iff_of_false nofun ?_
    rintro ⟨rfl, room⟩
    exact far room

theorem mapM_addOffsets_eq_some_iff {base offset : Nat} {distance? : Option Nat} :
    distance?.mapM (addOffsets base) = .ok (some offset) ↔
      ∃ distance, distance? = some distance ∧ base + distance = offset ∧ offset < offsetBound := by
  cases distance? with
  | none => exact iff_of_false nofun nofun
  | some distance =>
    rw [show (some distance).mapM (addOffsets base) = (addOffsets base distance).map some from rfl]
    constructor
    · intro carried
      cases sum : addOffsets base distance with
      | error overflow =>
        rw [sum] at carried
        cases carried
      | ok own =>
        rw [sum] at carried
        cases carried
        exact ⟨distance, rfl, addOffsets_eq_ok_iff.mp sum⟩
    · rintro ⟨own, same, sum⟩
      cases same
      rw [addOffsets_eq_ok_iff.mpr sum]
      rfl

namespace Projection

variable {entry : Projection} {code : String} {place offset : Nat}

theorem toOrigin?_eq_some_iff : entry.toOrigin? code place = .ok (some offset) ↔
    ∃ distance, entry.originDistance? code place = some distance ∧
      entry.origin.span.start + distance = offset ∧ offset < offsetBound :=
  mapM_addOffsets_eq_some_iff

theorem toGenerated?_eq_some_iff : entry.toGenerated? code offset = .ok (some place) ↔
    ∃ distance, entry.generatedDistance? code offset = some distance ∧
      entry.generated.start + distance = place ∧ place < offsetBound :=
  mapM_addOffsets_eq_some_iff

theorem contains_of_originDistance? {distance : Nat} (led : entry.originDistance? code place = some distance) :
    entry.generated.contains place = true := by
  cases contained : entry.generated.contains place with
  | true => rfl
  | false =>
    rw [originDistance?, contained, if_neg Bool.false_ne_true] at led
    cases led

theorem contains_of_generatedDistance? {distance : Nat}
    (led : entry.generatedDistance? code offset = some distance) : entry.origin.span.contains offset = true := by
  cases contained : entry.origin.span.contains offset with
  | true => rfl
  | false =>
    rw [generatedDistance?, contained, if_neg Bool.false_ne_true] at led
    cases led

theorem contains_of_toOrigin? (led : entry.toOrigin? code place = .ok (some offset)) :
    entry.generated.contains place = true := by
  obtain ⟨distance, far, -⟩ := toOrigin?_eq_some_iff.mp led
  exact contains_of_originDistance? far

theorem contains_of_toGenerated? (led : entry.toGenerated? code offset = .ok (some place)) :
    entry.origin.span.contains offset = true := by
  obtain ⟨distance, far, -⟩ := toGenerated?_eq_some_iff.mp led
  exact contains_of_generatedDistance? far

section
variable {literal : List Char}

theorem units?_of_covers (covers : entry.generated.Covers code.toList literal) :
    entry.units? code = some (Code.unitOffsets literal) := by
  rw [units?, Text.slice?_eq_some_iff.mpr covers]
  rfl

theorem originDistance?_text (escaped : entry.origin.kind = .text)
    (covers : entry.generated.Covers code.toList literal) (within : entry.generated.contains place = true) :
    entry.originDistance? code place =
      (Code.unitWritten literal (place - entry.generated.start)).map Prod.snd := by
  rw [originDistance?, if_pos within]
  simp only [escaped, units?_of_covers covers]
  rfl

theorem generatedDistance?_text (escaped : entry.origin.kind = .text)
    (covers : entry.generated.Covers code.toList literal) (within : entry.origin.span.contains offset = true) :
    entry.generatedDistance? code offset =
      (Code.unitRead literal (offset - entry.origin.span.start)).map Prod.fst := by
  rw [generatedDistance?, if_pos within]
  simp only [escaped, units?_of_covers covers]
  rfl

end

/-- The entry stands for `text`: the code holds it escaped, and the other range is as long as it is. -/
structure Escapes (entry : Projection) (code : String) (text : List Char) : Prop where
  kind : entry.origin.kind = .text
  covers : entry.generated.Covers code.toList (Code.escapeChars text)
  length : entry.origin.span.length = width text
  word : entry.origin.span.IsWord
  code_lt : code.utf8ByteSize < offsetBound

namespace Escapes
variable {text before after : List Char} {c : Char}

theorem contains_origin_iff (escapes : entry.Escapes code text) : entry.origin.span.contains offset = true ↔
    entry.origin.span.start ≤ offset ∧ offset < entry.origin.span.start + width text := by
  have long := escapes.length
  rw [Span.length] at long
  rw [Span.contains_iff]
  omega

theorem unitWritten_eq (split : text = before ++ c :: after)
    (reached : entry.generated.start + width (Code.escapeChars before) ≤ place)
    (stopped : place < entry.generated.start + width (Code.escapeChars before) + width (Code.escapeChar c)) :
    Code.unitWritten (Code.escapeChars text) (place - entry.generated.start) =
      some (width (Code.escapeChars before), width before) := by
  rw [split]
  exact Code.unitWritten_escapeChars before after c (by omega) (by omega)

theorem unitRead_eq (split : text = before ++ c :: after)
    (reached : entry.origin.span.start + width before ≤ offset)
    (stopped : offset < entry.origin.span.start + width before + c.utf8Size) :
    Code.unitRead (Code.escapeChars text) (offset - entry.origin.span.start) =
      some (width (Code.escapeChars before), width before) := by
  rw [split]
  exact Code.unitRead_escapeChars before after c (by omega) (by omega)

/-- A generated offset is carried to the beginning of the character whose unit it lies in. -/
theorem toOrigin?_unit (escapes : entry.Escapes code text) (split : text = before ++ c :: after)
    (reached : entry.generated.start + width (Code.escapeChars before) ≤ place)
    (stopped : place < entry.generated.start + width (Code.escapeChars before) + width (Code.escapeChar c)) :
    entry.toOrigin? code place = .ok (some (entry.origin.span.start + width before)) := by
  have inside : entry.generated.contains place = true := by
    rw [escapes.covers.contains_iff, split, Code.escapeChars_append, Code.escapeChars_cons, width_append,
      width_append]
    omega
  have long := escapes.length
  have stop := escapes.word.stop
  have wide := Char.utf8Size_pos c
  rw [split, width_append, width_cons, Span.length] at long
  refine toOrigin?_eq_some_iff.mpr ⟨_, ?_, rfl, by omega⟩
  rw [originDistance?_text escapes.kind escapes.covers inside, unitWritten_eq split reached stopped, Option.map_some]

/-- An offset of the text is carried to the beginning of the unit of the character it lies in. -/
theorem toGenerated?_character (escapes : entry.Escapes code text) (split : text = before ++ c :: after)
    (reached : entry.origin.span.start + width before ≤ offset)
    (stopped : offset < entry.origin.span.start + width before + c.utf8Size) :
    entry.toGenerated? code offset = .ok (some (entry.generated.start + width (Code.escapeChars before))) := by
  have inside : entry.origin.span.contains offset = true := by
    rw [escapes.contains_origin_iff, split, width_append, width_cons]
    omega
  have last := escapes.covers.stop_le
  have stop := escapes.covers.stop_eq
  have small := escapes.code_lt
  rw [split, Code.escapeChars_append, width_append] at stop
  rw [width_toList] at last
  refine toGenerated?_eq_some_iff.mpr ⟨_, ?_, rfl, by omega⟩
  rw [generatedDistance?_text escapes.kind escapes.covers inside, unitRead_eq split reached stopped, Option.map_some]

theorem exists_unit (escapes : entry.Escapes code text) (within : entry.generated.contains place = true) :
    ∃ before c after, text = before ++ c :: after ∧
      entry.generated.start + width (Code.escapeChars before) ≤ place ∧
      place < entry.generated.start + width (Code.escapeChars before) + width (Code.escapeChar c) := by
  obtain ⟨lower, upper⟩ := escapes.covers.contains_iff.mp within
  obtain ⟨before, c, after, split, reached, stopped⟩ :=
    Code.exists_unit (show place - entry.generated.start < width (Code.escapeChars text) by omega)
  exact ⟨before, c, after, split, by omega, by omega⟩

theorem exists_character (escapes : entry.Escapes code text) (within : entry.origin.span.contains offset = true) :
    ∃ before c after, text = before ++ c :: after ∧ entry.origin.span.start + width before ≤ offset ∧
      offset < entry.origin.span.start + width before + c.utf8Size := by
  obtain ⟨lower, upper⟩ := escapes.contains_origin_iff.mp within
  obtain ⟨before, c, after, split, reached, stopped⟩ :=
    Text.exists_character (show offset - entry.origin.span.start < width text by omega)
  exact ⟨before, c, after, split, by omega, by omega⟩

theorem carries_start (escapes : entry.Escapes code text) (split : text = before ++ c :: after) :
    entry.generated.contains (entry.generated.start + width (Code.escapeChars before)) = true ∧
      entry.origin.span.contains (entry.origin.span.start + width before) = true ∧
      entry.toOrigin? code (entry.generated.start + width (Code.escapeChars before)) =
        .ok (some (entry.origin.span.start + width before)) ∧
      entry.toGenerated? code (entry.origin.span.start + width before) =
        .ok (some (entry.generated.start + width (Code.escapeChars before))) := by
  have unit := width_pos (Code.escapeChar_ne_nil c)
  have wide := Char.utf8Size_pos c
  have there := escapes.toOrigin?_unit split (Nat.le_refl _) (by omega)
  have back := escapes.toGenerated?_character split (Nat.le_refl _) (by omega)
  exact ⟨contains_of_toOrigin? there, contains_of_toGenerated? back, there, back⟩

private theorem toOrigin?_le (escapes : entry.Escapes code text) {other last : Nat} (forward : place ≤ other)
    (here : entry.toOrigin? code place = .ok (some offset)) (there : entry.toOrigin? code other = .ok (some last)) :
    offset ≤ last := by
  obtain ⟨before, c, after, split, reached, stopped⟩ := escapes.exists_unit (contains_of_toOrigin? here)
  obtain ⟨front, d, back, parts, begun, ended⟩ := escapes.exists_unit (contains_of_toOrigin? there)
  have ordered := Code.unitWritten_le (Nat.sub_le_sub_right forward entry.generated.start)
    (unitWritten_eq split reached stopped) (unitWritten_eq parts begun ended)
  cases here.symm.trans (escapes.toOrigin?_unit split reached stopped)
  cases there.symm.trans (escapes.toOrigin?_unit parts begun ended)
  exact Nat.add_le_add_left ordered _

private theorem toGenerated?_le (escapes : entry.Escapes code text) {other last : Nat} (forward : offset ≤ other)
    (here : entry.toGenerated? code offset = .ok (some place)) (there : entry.toGenerated? code other = .ok (some last)) :
    place ≤ last := by
  obtain ⟨before, c, after, split, reached, stopped⟩ := escapes.exists_character (contains_of_toGenerated? here)
  obtain ⟨front, d, back, parts, begun, ended⟩ := escapes.exists_character (contains_of_toGenerated? there)
  have ordered := Code.unitRead_le (Nat.sub_le_sub_right forward entry.origin.span.start)
    (unitRead_eq split reached stopped) (unitRead_eq parts begun ended)
  cases here.symm.trans (escapes.toGenerated?_character split reached stopped)
  cases there.symm.trans (escapes.toGenerated?_character parts begun ended)
  exact Nat.add_le_add_left ordered _

private theorem carries_place (escapes : entry.Escapes code text) (within : entry.generated.contains place = true) :
    ∃ offset, entry.toOrigin? code place = .ok (some offset) ∧ entry.origin.span.contains offset = true ∧
      entry.toGenerated? code offset =
        .ok (some (entry.generated.start + Code.unitStart text (place - entry.generated.start))) := by
  obtain ⟨before, c, after, split, reached, stopped⟩ := escapes.exists_unit within
  obtain ⟨-, inside, -, back⟩ := escapes.carries_start split
  refine ⟨_, escapes.toOrigin?_unit split reached stopped, inside, ?_⟩
  rw [back, split, Code.unitStart_append_cons (by omega) (by omega)]

theorem carries_offset (escapes : entry.Escapes code text) (within : entry.origin.span.contains offset = true) :
    ∃ place, entry.toGenerated? code offset = .ok (some place) ∧ entry.generated.contains place = true ∧
      entry.toOrigin? code place =
        .ok (some (entry.origin.span.start + characterStart text (offset - entry.origin.span.start))) := by
  obtain ⟨before, c, after, split, reached, stopped⟩ := escapes.exists_character within
  obtain ⟨inside, -, there, -⟩ := escapes.carries_start split
  refine ⟨_, escapes.toGenerated?_character split reached stopped, inside, ?_⟩
  rw [there, split, characterStart_append_cons (by omega) (by omega)]

end Escapes

/-- Where the code holds an escaped text and the range it came from is as long as the text, every offset of
either range is carried into the other one, and offsets keep their order. There and back an offset of the
text is rounded down to its character, and an offset of the code to the unit it lies in. -/
theorem offsets_carried {text : String} (escaped : entry.origin.kind = .text)
    (holds : entry.generated.slice? code = some (Code.escape text))
    (long : entry.origin.span.length = text.utf8ByteSize) (word : entry.origin.span.IsWord)
    (code_lt : code.utf8ByteSize < offsetBound) :
    (∀ place, entry.generated.contains place = true → ∃ offset,
      entry.toOrigin? code place = .ok (some offset) ∧ entry.origin.span.contains offset = true ∧
      entry.toGenerated? code offset =
        .ok (some (entry.generated.start + Code.unitStart text.toList (place - entry.generated.start)))) ∧
    (∀ offset, entry.origin.span.contains offset = true → ∃ place,
      entry.toGenerated? code offset = .ok (some place) ∧ entry.generated.contains place = true ∧
      entry.toOrigin? code place =
        .ok (some (entry.origin.span.start + characterStart text.toList (offset - entry.origin.span.start)))) ∧
    (∀ place other offset last, place ≤ other → entry.toOrigin? code place = .ok (some offset) →
      entry.toOrigin? code other = .ok (some last) → offset ≤ last) ∧
    ∀ offset other place last, offset ≤ other → entry.toGenerated? code offset = .ok (some place) →
      entry.toGenerated? code other = .ok (some last) → place ≤ last := by
  have escapes : entry.Escapes code text.toList :=
    { kind := escaped
      covers := by
        rw [← Code.toList_escape]
        exact Span.covers_of_slice? holds
      length := long.trans (width_toList text).symm
      word
      code_lt }
  exact ⟨fun _ => escapes.carries_place, fun _ => escapes.carries_offset,
    fun _ _ _ _ => escapes.toOrigin?_le, fun _ _ _ _ => escapes.toGenerated?_le⟩

def mixedText : String := "é\"\u2028x"

def mixedCode : String := "日" ++ Code.escape mixedText ++ "\");"

def mixedEntry : Projection := ⟨⟨3, 14⟩, ⟨⟨"a"⟩, ⟨20, 27⟩, .text⟩, 0⟩

theorem offsets_carried_mixed : mixedEntry.generated.slice? mixedCode = some (Code.escape mixedText) ∧
    (∃ offset, mixedEntry.toOrigin? mixedCode 9 = .ok (some offset) ∧ mixedEntry.origin.span.contains offset = true ∧
      mixedEntry.toGenerated? mixedCode offset = .ok (some 7)) ∧
    ∃ place, mixedEntry.toGenerated? mixedCode 21 = .ok (some place) ∧ mixedEntry.generated.contains place = true ∧
      mixedEntry.toOrigin? mixedCode place = .ok (some 20) := by
  have holds : mixedEntry.generated.slice? mixedCode = some (Code.escape mixedText) := by decide
  have escaped : mixedEntry.origin.kind = .text := rfl
  obtain ⟨back, there, -⟩ := offsets_carried escaped holds (by decide) ⟨by decide, by decide⟩
    (by decide)
  have unit : Code.unitStart mixedText.toList 6 = 4 := by decide
  have character : characterStart mixedText.toList 1 = 0 := by decide
  refine ⟨holds, ?_, ?_⟩
  · have carried := back 9 (by decide)
    rwa [show mixedEntry.generated.start = 3 from rfl, unit] at carried
  · have carried := there 21 (by decide)
    rwa [show mixedEntry.origin.span.start = 20 from rfl, character] at carried

end Projection

end TextTemplate
