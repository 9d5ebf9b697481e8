import TextTemplate.Code.EscapedUnit
import TextTemplate.Proofs.Slices

/-! Escaped text is read back character by character, and the units of a literal written by
`escape` are the escapes of the characters of its text. Everything on offsets inside literals
follows from those two facts. -/

namespace TextTemplate.Code
open Text

theorem escapeChar_cases (c : Char) :
    (escapeChar c = [c] ∧ c ≠ '\\') ∨
    (∃ short, escapeChar c = ['\\', short] ∧ short ≠ 'u' ∧ shortEscape? short = some c) ∨
    (∃ digits, escapeChar c = '\\' :: 'u' :: digits ∧ digits.length = 4 ∧ width digits = 4 ∧
      namedChar? digits = some c) := by
  unfold escapeChar
  split
  case h_1 => exact .inr (.inl ⟨'\\', rfl, by decide, rfl⟩)
  case h_2 => exact .inr (.inl ⟨'"', rfl, by decide, rfl⟩)
  case h_3 => exact .inr (.inl ⟨'n', rfl, by decide, rfl⟩)
  case h_4 => exact .inr (.inl ⟨'r', rfl, by decide, rfl⟩)
  case h_5 => exact .inr (.inl ⟨'t', rfl, by decide, rfl⟩)
  case h_6 => exact .inr (.inl ⟨'0', rfl, by decide, rfl⟩)
  case h_7 => exact .inr (.inr ⟨['0', '0', '8', '5'], rfl, rfl, rfl, by decide⟩)
  case h_8 => exact .inr (.inr ⟨['2', '0', '2', '8'], rfl, rfl, rfl, by decide⟩)
  case h_9 => exact .inr (.inr ⟨['2', '0', '2', '9'], rfl, rfl, rfl, by decide⟩)
  case h_10 backslash _ _ _ _ _ _ _ _ => exact .inl ⟨rfl, backslash⟩

@[simp] theorem escapeChars_nil : escapeChars [] = [] := rfl

@[simp] theorem escapeChars_cons (c : Char) (rest : List Char) :
    escapeChars (c :: rest) = escapeChar c ++ escapeChars rest := rfl

@[simp] theorem escapeChars_append (first second : List Char) :
    escapeChars (first ++ second) = escapeChars first ++ escapeChars second :=
  List.flatMap_append

theorem escapeChar_ne_nil (c : Char) : escapeChar c ≠ [] := by
  rcases escapeChar_cases c with ⟨form, -⟩ | ⟨short, form, -⟩ | ⟨digits, form, -⟩
  all_goals rw [form]; exact List.cons_ne_nil _ _

private theorem unescapeChars_escapeChar (c : Char) (rest : List Char) :
    unescapeChars (escapeChar c ++ rest) = c :: unescapeChars rest := by
  rcases escapeChar_cases c with
    ⟨form, plain⟩ | ⟨short, form, notCode, named⟩ | ⟨digits, form, four, -, named⟩
  · rw [form, List.singleton_append, unescapeChars]
    · exact fun _ same _ => plain same
    · exact fun _ _ same _ => plain same
  · rw [form, List.cons_append, List.cons_append, List.nil_append, unescapeChars, named]
    · rfl
    · exact notCode
  · rw [form, List.cons_append, List.cons_append, unescapeChars, List.take_left' four,
      List.drop_left' four, named]
    rfl

theorem unescapeChars_append_of_escaped (text rest : List Char) :
    unescapeChars (escapeChars text ++ rest) = text ++ unescapeChars rest := by
  induction text with
  | nil => rfl
  | cons c more ih =>
    rw [escapeChars_cons, List.append_assoc, unescapeChars_escapeChar, ih, List.cons_append]

theorem unescapeChars_escapeChars (text : List Char) : unescapeChars (escapeChars text) = text := by
  have read := unescapeChars_append_of_escaped text []
  rw [List.append_nil, unescapeChars, List.append_nil] at read
  exact read

theorem unescape_escape (text : String) : Code.unescape (Code.escape text) = text := by
  rw [unescape, escape, String.toList_ofList, unescapeChars_escapeChars, String.ofList_toList]

private theorem splitUnit_escapeChar (c : Char) (rest : List Char) :
    splitUnit (escapeChar c ++ rest) = (escapeChar c, rest) := by
  rcases escapeChar_cases c with
    ⟨form, plain⟩ | ⟨short, form, notCode, -⟩ | ⟨digits, form, -, wide, -⟩
  · rw [form, List.singleton_append, splitUnit]
    · exact fun _ same _ => plain same
    · exact fun _ _ same _ => plain same
  · rw [form, List.cons_append, List.cons_append, List.nil_append, splitUnit]
    exact notCode
  · rw [form, List.cons_append, List.cons_append, splitUnit, ← wide, splitWithin_width]
    rfl

private theorem unitOffsetsFrom_escapeChars (written read : Nat) (c : Char) (rest : List Char) :
    unitOffsetsFrom written read (escapeChars (c :: rest)) =
      (written, read) ::
        unitOffsetsFrom (written + width (escapeChar c)) (read + c.utf8Size) (escapeChars rest) := by
  have unit := splitUnit_escapeChar c (escapeChars rest)
  have decoded : width (unescapeChars (escapeChar c)) = c.utf8Size := by
    have single := unescapeChars_escapeChars [c]
    rw [escapeChars_cons, escapeChars_nil, List.append_nil] at single
    rw [single, width_cons, width_nil, Nat.add_zero]
  rw [escapeChars_cons]
  cases literal : escapeChar c ++ escapeChars rest with
  | nil => exact absurd (List.append_eq_nil_iff.mp literal).1 (escapeChar_ne_nil c)
  | cons d more =>
    rw [literal] at unit
    rw [unitOffsetsFrom, unit, decoded]

/-- The last unit that begins no later than `distance` bytes into the literal, and, below, the
last whose character begins no later than that in the text. -/
def unitWritten (literal : List Char) (distance : Nat) : Option (Nat × Nat) :=
  ((unitOffsets literal).takeWhile fun unit => unit.1 ≤ distance).getLast?

def unitRead (literal : List Char) (distance : Nat) : Option (Nat × Nat) :=
  ((unitOffsets literal).takeWhile fun unit => unit.2 ≤ distance).getLast?

/-- Of units that begin one after the other, the last one a bound lets pass is the one that
the bound falls into. `passes` is the bound on one of the two sides. -/
private theorem last_unit_at (before : List Char) (c : Char) (after : List Char)
    (passes : Nat × Nat → Bool) (written read : Nat)
    (early : ∀ first second, before = first ++ second →
      passes (written + width (escapeChars first), read + width first) = true)
    (late : passes (written + width (escapeChars before) + width (escapeChar c),
      read + width before + c.utf8Size) = false) :
    ((unitOffsetsFrom written read (escapeChars (before ++ c :: after))).takeWhile passes).getLast? =
      some (written + width (escapeChars before), read + width before) := by
  induction before generalizing written read with
  | nil =>
    have first := early [] [] rfl
    simp only [escapeChars_nil, width_nil, Nat.add_zero] at first late ⊢
    rw [List.nil_append, unitOffsetsFrom_escapeChars, List.takeWhile_cons_of_pos first]
    have stopped : ((unitOffsetsFrom (written + width (escapeChar c)) (read + c.utf8Size)
        (escapeChars after)).takeWhile passes) = [] := by
      cases after with
      | nil => rw [escapeChars_nil, unitOffsetsFrom, List.takeWhile_cons_of_neg (by simp [late])]
      | cons d more => rw [unitOffsetsFrom_escapeChars, List.takeWhile_cons_of_neg (by simp [late])]
    rw [stopped]
    rfl
  | cons d more ih =>
    have first := early [] (d :: more) rfl
    simp only [escapeChars_nil, width_nil, Nat.add_zero] at first
    rw [List.cons_append, unitOffsetsFrom_escapeChars, List.takeWhile_cons_of_pos first,
      List.getLast?_cons]
    have rest := ih (written + width (escapeChar d)) (read + d.utf8Size)
      (fun front back split => by
        have := early (d :: front) back (by rw [split, List.cons_append])
        simpa only [escapeChars_cons, width_append, width_cons, Nat.add_assoc] using this)
      (by simpa only [escapeChars_cons, width_append, width_cons, Nat.add_assoc] using late)
    rw [rest]
    simp only [Option.getD_some, escapeChars_cons, width_append, width_cons, Nat.add_assoc]

private theorem width_append_le (first second : List Char) : width first ≤ width (first ++ second) := by
  rw [width_append]
  exact Nat.le_add_right _ _

theorem unitRead_escapeChars (before after : List Char) (c : Char) {distance : Nat}
    (reached : width before ≤ distance) (stopped : distance < width before + c.utf8Size) :
    unitRead (escapeChars (before ++ c :: after)) distance =
      some (width (escapeChars before), width before) := by
  have last := last_unit_at before c after (fun unit => unit.2 ≤ distance) 0 0
    (fun first second split => by
      have := width_append_le first second
      rw [← split] at this
      simp only [decide_eq_true_eq]
      omega)
    (by simp only [decide_eq_false_iff_not]; omega)
  simp only [Nat.zero_add] at last
  exact last

theorem unitWritten_escapeChars (before after : List Char) (c : Char) {distance : Nat}
    (reached : width (escapeChars before) ≤ distance)
    (stopped : distance < width (escapeChars before) + width (escapeChar c)) :
    unitWritten (escapeChars (before ++ c :: after)) distance =
      some (width (escapeChars before), width before) := by
  have last := last_unit_at before c after (fun unit => unit.1 ≤ distance) 0 0
    (fun first second split => by
      have := width_append_le (escapeChars first) (escapeChars second)
      rw [← escapeChars_append, ← split] at this
      simp only [decide_eq_true_eq]
      omega)
    (by simp only [decide_eq_false_iff_not]; omega)
  simp only [Nat.zero_add] at last
  exact last

theorem exists_unit {text : List Char} {distance : Nat} (inside : distance < width (escapeChars text)) :
    ∃ before c after, text = before ++ c :: after ∧ width (escapeChars before) ≤ distance ∧
      distance < width (escapeChars before) + width (escapeChar c) := by
  induction text generalizing distance with
  | nil => simp at inside
  | cons c rest ih =>
    rw [escapeChars_cons, width_append] at inside
    by_cases first : distance < width (escapeChar c)
    · exact ⟨[], c, rest, rfl, Nat.zero_le _, by simpa using first⟩
    · obtain ⟨before, d, after, rfl, reached, stopped⟩ := @ih (distance - width (escapeChar c)) (by omega)
      refine ⟨c :: before, d, after, rfl, ?_, ?_⟩
      all_goals rw [escapeChars_cons, width_append]; omega

theorem toList_escape (text : String) : (escape text).toList = escapeChars text.toList :=
  String.toList_ofList

private theorem escape_append (first second : String) : escape (first ++ second) = escape first ++ escape second := by
  rw [escape, String.toList_append, escapeChars_append, String.ofList_append, escape, escape]

private theorem unescape_append_of_escaped (text following : String) :
    unescape (escape text ++ following) = text ++ unescape following := by
  rw [unescape, escape, String.toList_append, String.toList_ofList, unescapeChars_append_of_escaped,
    String.ofList_append, String.ofList_toList, unescape]

/-- Escaped text is read back whatever follows it. So reading may stop behind any of its characters: what
is left there is the rest of the text, escaped, and going on with that gives the same as not to stop. -/
theorem unescape_resumes (text following : String) :
    unescape (escape text ++ following) = text ++ unescape following ∧
    unescape (escape text) = text ∧
    ∀ count, let front := String.ofList (text.toList.take count)
      let back := String.ofList (text.toList.drop count)
      escape text = escape front ++ escape back ∧
      unescape (escape text ++ following) = unescape (escape front) ++ unescape (escape back ++ following) := by
  refine ⟨unescape_append_of_escaped text following, unescape_escape text, fun count => ?_⟩
  intro front back
  have whole : front ++ back = text := by
    rw [← String.ofList_append, List.take_append_drop, String.ofList_toList]
  refine ⟨by rw [← escape_append, whole], ?_⟩
  rw [unescape_append_of_escaped, unescape_escape, unescape_append_of_escaped, ← String.append_assoc, whole]

end TextTemplate.Code
