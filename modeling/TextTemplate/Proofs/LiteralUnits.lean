import TextTemplate.Proofs.Boundaries
import TextTemplate.Proofs.EscapedRanges

/-! The units of any literal, also of one that `escape` never writes: with a backslash at its end, or a `\u`
that is cut short or stands in front of wide characters. Cutting by byte offsets never leaves the literal or
the boundaries of its characters, and every turn gets ahead on both sides. So offsets are carried in order,
as far as the sum with the beginning of the range is one. -/

namespace TextTemplate
open Text

namespace Code

/-- The bytes that the first unit is taken to have, before that is rounded down to a boundary. -/
def unitReach : List Char → Nat
  | '\\' :: 'u' :: after => min 6 (2 + width after)
  | '\\' :: c :: _ => 1 + c.utf8Size
  | c :: _ => c.utf8Size
  | [] => 0

/-- One turn of cutting a literal by byte offsets, from one unit to the next. There is none if a cut would be
inside a character or behind the literal. -/
def cutUnit? (literal : List Char) (here : Nat × Nat) : Option (Nat × Nat) :=
  (splitAt? here.1 literal).bind fun parts =>
    (splitAt? (boundaryBack parts.2 (unitReach parts.2)) parts.2).map fun unit =>
      (here.1 + width unit.1, here.2 + width (unescapeChars unit.1))

/-- The turns from a place of the literal on, as long as there is something left to cut. -/
inductive Cuts (literal : List Char) : Nat × Nat → List (Nat × Nat) → Prop where
  | done {here : Nat × Nat} (passed : here.1 = width literal) : Cuts literal here [here]
  | turn {here next : Nat × Nat} {later : List (Nat × Nat)} (unfinished : here.1 < width literal)
      (cut : cutUnit? literal here = some next) (rest : Cuts literal next later) : Cuts literal here (here :: later)

/-- A unit has as many of the bytes that are looked at as make whole characters. -/
theorem longestWithin_splitUnit (literal : List Char) :
    LongestWithin literal (splitUnit literal).1 (unitReach literal) := by
  have single (c : Char) (rest : List Char) : LongestWithin (c :: rest) [c] c.utf8Size :=
    (longestWithin_nil fun first _ => Char.utf8Size_pos first).cons c
  fun_cases splitUnit literal with
  | case1 after =>
    have reach : unitReach ('\\' :: 'u' :: after) = 1 + (1 + min 4 (width after)) := by
      rw [unitReach]
      omega
    rw [reach]
    exact ((longestWithin_splitWithin 4 after).clamped.cons 'u').cons '\\'
  | case2 c rest other =>
    rw [unitReach]
    · exact (single c rest).cons '\\'
    · exact other
  | case3 c rest plain other =>
    rw [unitReach]
    · exact single c rest
    · exact plain
    · exact other
  | case4 => exact longestWithin_whole (Nat.le_refl _)

theorem splitUnit_append (literal : List Char) : (splitUnit literal).1 ++ (splitUnit literal).2 = literal := by
  fun_cases splitUnit literal with
  | case1 after =>
    simp [splitWithin_append]
  | _ => rfl

private theorem cutUnit?_eq (front rest : List Char) (read : Nat) :
    cutUnit? (front ++ rest) (width front, read) =
      some (width (front ++ (splitUnit rest).1), read + width (unescapeChars (splitUnit rest).1)) := by
  have here : splitAt? (width front) (front ++ rest) = some (front, rest) := splitAt?_eq_some_iff.mpr ⟨rfl, rfl⟩
  have unit : splitAt? (boundaryBack rest (unitReach rest)) rest = some (splitUnit rest) :=
    splitAt?_eq_some_iff.mpr ⟨(splitUnit_append rest).symm, (longestWithin_splitUnit rest).boundaryBack_eq⟩
  simp only [cutUnit?, here, unit, Option.bind_some, Option.map_some, width_append]

private theorem cuts_unitOffsetsFrom (front rest : List Char) (read : Nat) :
    Cuts (front ++ rest) (width front, read) (unitOffsetsFrom (width front) read rest) := by
  generalize begun : width front = written
  fun_induction unitOffsetsFrom written read rest generalizing front with
  | case1 written read =>
    exact .done (by rw [List.append_nil, begun])
  | case2 written read c rest ih =>
    subst begun
    have later := ih (front ++ (splitUnit (c :: rest)).1) (width_append ..)
    rw [List.append_assoc, splitUnit_append] at later
    have wide := Char.utf8Size_pos c
    refine .turn ?_ ?_ later
    · rw [width_append, width_cons]
      show width front < _
      omega
    · rw [cutUnit?_eq, width_append]

private theorem length_unitOffsetsFrom_le (written read : Nat) (literal : List Char) :
    (unitOffsetsFrom written read literal).length ≤ literal.length + 1 := by
  fun_induction unitOffsetsFrom written read literal with
  | case1 => exact Nat.le_refl _
  | case2 written read c rest ih =>
    have shorter := splitUnit_rest_length c rest
    rw [List.length_cons]
    omega

namespace Cuts
variable {literal : List Char} {here : Nat × Nat} {steps : List (Nat × Nat)}

theorem head?_eq (cuts : Cuts literal here steps) : steps.head? = some here := by
  cases cuts <;> rfl

private theorem getLast?_eq (cuts : Cuts literal here steps) : steps.getLast?.map Prod.fst = some (width literal) := by
  induction cuts with
  | done passed => exact congrArg some passed
  | turn unfinished cut rest ih =>
    rw [List.getLast?_cons_of_ne_nil, ih]
    rintro rfl
    cases rest

/-- The places that the turns lead to are boundaries of the literal. -/
theorem boundary (cuts : Cuts literal here steps) : ∀ step ∈ steps, IsBoundary literal step.1 := by
  induction cuts with
  | done passed => exact List.forall_mem_singleton.mpr ⟨literal, [], (List.append_nil _).symm, passed⟩
  | turn unfinished cut rest ih =>
    obtain ⟨parts, found, -⟩ := Option.bind_eq_some_iff.mp cut
    have here := splitAt?_isSome_iff.mp (Option.isSome_of_eq_some found)
    exact List.forall_mem_cons.mpr ⟨here, ih⟩

end Cuts

private theorem hexDigit?_lt {c : Char} {digit : Nat} (read : hexDigit? c = some digit) : digit < 16 := by
  unfold hexDigit? at read
  simp only [Char.le_def, UInt32.le_iff_toNat_le] at read
  split at read
  next decimal =>
    cases read
    have : c.toNat ≤ 57 := decimal.2
    show c.toNat - 48 < 16
    omega
  next =>
    split at read
    next small =>
      cases read
      have : c.toNat ≤ 102 := small.2
      show c.toNat - 97 + 10 < 16
      omega
    next =>
      split at read
      next large =>
        cases read
        have : c.toNat ≤ 70 := large.2
        show c.toNat - 65 + 10 < 16
        omega
      next => cases read

private theorem namedChar?_width {digits : List Char} {c : Char} (named : namedChar? digits = some c) :
    c.utf8Size ≤ width ('\\' :: 'u' :: digits) := by
  match digits with
  | [] => cases named
  | [d] =>
    have ascii : ∀ digit < 16, (Char.ofNat digit).utf8Size = 1 := by decide
    by_cases sign : d = '+'
    · subst sign
      cases named
    · have single : namedChar? [d] = (hexNumberFrom? 0 [d]).bind fun code =>
          if code.isValidChar then some (Char.ofNat code) else none := by
        simp [namedChar?, sign]
      rw [single] at named
      obtain ⟨code, read, valid⟩ := Option.bind_eq_some_iff.mp named
      obtain ⟨digit, here, value⟩ := Option.bind_eq_some_iff.mp read
      rw [hexNumberFrom?, Nat.zero_mul, Nat.zero_add] at value
      obtain rfl := Option.some.inj value
      split at valid
      next =>
        obtain rfl := Option.some.inj valid
        rw [ascii digit (hexDigit?_lt here), width_cons]
        exact Nat.le_add_right 1 _
      next => cases valid
  | first :: second :: more =>
    have wide := Char.utf8Size_pos first
    have next := Char.utf8Size_pos second
    have most := Char.utf8Size_le_four c
    have opening : width ['\\', 'u'] = 2 := rfl
    simp only [width_cons, width_nil] at opening ⊢
    omega

private theorem shortEscape?_width {c short : Char} (named : shortEscape? c = some short) :
    short.utf8Size ≤ width ['\\', c] := by
  have ascii : short.utf8Size = 1 := by
    unfold shortEscape? at named
    split at named
    case h_7 => cases named
    all_goals
      cases named
      rfl
  rw [ascii, width_cons]
  exact Nat.le_add_right 1 _

/-- Reading escapes back never makes a text wider. -/
theorem width_unescapeChars_le (text : List Char) : width (unescapeChars text) ≤ width text := by
  have denoted {named : Option Char} {form : List Char} (narrow : ∀ c, named = some c → c.utf8Size ≤ width form) :
      width ((named.map fun c => [c]).getD form) ≤ width form := by
    cases named with
    | none => exact Nat.le_refl _
    | some c => exact narrow c rfl
  fun_induction unescapeChars text with
  | case1 => exact Nat.le_refl _
  | case2 after digits ih =>
    have parts : width after = width digits + width (after.drop 4) := by
      rw [← width_append, List.take_append_drop]
    have first := denoted fun c (named : namedChar? digits = some c) => namedChar?_width named
    rw [width_append]
    simp only [width_cons] at first ⊢
    omega
  | case3 c rest other ih =>
    have first := denoted fun short (named : shortEscape? c = some short) => shortEscape?_width named
    rw [width_append]
    simp only [width_cons, width_nil] at first ⊢
    omega
  | case4 c rest other plain ih =>
    rw [width_cons, width_cons]
    omega

private theorem cutUnit?_le {literal : List Char} {here next : Nat × Nat} (cut : cutUnit? literal here = some next)
    (behind : here.2 ≤ here.1) : next.2 ≤ next.1 := by
  obtain ⟨parts, -, cut⟩ := Option.bind_eq_some_iff.mp cut
  obtain ⟨unit, -, rfl⟩ := Option.map_eq_some_iff.mp cut
  exact Nat.add_le_add behind (width_unescapeChars_le unit.1)

private theorem Cuts.read_le {literal : List Char} {here : Nat × Nat} {steps : List (Nat × Nat)}
    (cuts : Cuts literal here steps) (behind : here.2 ≤ here.1) : ∀ step ∈ steps, step.2 ≤ step.1 := by
  induction cuts with
  | done passed => exact List.forall_mem_singleton.mpr behind
  | turn unfinished cut rest ih => exact List.forall_mem_cons.mpr ⟨behind, ih (cutUnit?_le cut behind)⟩

theorem unitOffsets_cuts (literal : List Char) : Cuts literal (0, 0) (unitOffsets literal) :=
  cuts_unitOffsetsFrom [] literal 0

theorem unitOffsets_le {literal : List Char} {unit : Nat × Nat} (member : unit ∈ unitOffsets literal) :
    unit.2 ≤ unit.1 ∧ unit.1 ≤ width literal := by
  have cuts := unitOffsets_cuts literal
  obtain ⟨front, back, rfl, wide⟩ := cuts.boundary unit member
  refine ⟨cuts.read_le (Nat.le_refl 0) unit member, ?_⟩
  rw [wide, width_append]
  exact Nat.le_add_right _ _

theorem last_unit_isSome (literal : List Char) {passes : Nat × Nat → Bool} (first : passes (0, 0) = true) :
    (((unitOffsets literal).takeWhile passes).getLast?).isSome = true := by
  have begins := (unitOffsets_cuts literal).head?_eq
  obtain ⟨more, offsets⟩ := List.head?_eq_some_iff.mp begins
  rw [offsets, List.takeWhile_cons_of_pos first, List.getLast?_cons]
  rfl

private theorem unitWritten_isSome (literal : List Char) (distance : Nat) :
    (unitWritten literal distance).isSome = true :=
  last_unit_isSome literal (decide_eq_true (Nat.zero_le distance))

private theorem unitRead_isSome (literal : List Char) (distance : Nat) : (unitRead literal distance).isSome = true :=
  last_unit_isSome literal (decide_eq_true (Nat.zero_le distance))

section
variable {literal : List Char} {distance : Nat} {unit : Nat × Nat}

private theorem unitWritten_le_distance (found : unitWritten literal distance = some unit) : unit.2 ≤ distance := by
  have member := List.mem_of_getLast? found
  have passed := List.mem_takeWhile_imp member
  exact Nat.le_trans (unitOffsets_le ((List.takeWhile_sublist _).subset member)).1 (of_decide_eq_true passed)

private theorem unitRead_le_width (found : unitRead literal distance = some unit) : unit.1 ≤ width literal :=
  (unitOffsets_le ((List.takeWhile_sublist _).subset (List.mem_of_getLast? found))).2

end

end Code

namespace Span

theorem slice?_isSome_iff {span : Span} {code : String} :
    (span.slice? code).isSome = true ↔ ∃ literal, span.Covers code.toList literal := by
  constructor
  · intro found
    obtain ⟨part, slice⟩ := Option.isSome_iff_exists.mp found
    exact ⟨part.toList, covers_of_slice? slice⟩
  · rintro ⟨literal, covers⟩
    exact Option.isSome_of_eq_some (slice?_of_covers covers)

end Span

namespace Projection
variable {entry : Projection} {code : String} {place offset : Nat}

theorem covers_of_units? {units : List (Nat × Nat)} (found : entry.units? code = some units) :
    ∃ literal, entry.generated.Covers code.toList literal := by
  obtain ⟨literal, covers, -⟩ := Option.map_eq_some_iff.mp found
  exact ⟨literal, Text.slice?_eq_some_iff.mp covers⟩

theorem originDistance?_eq_some (escaped : entry.origin.kind = .text) {distance : Nat}
    (led : entry.originDistance? code place = some distance) :
    ∃ literal unit, entry.generated.Covers code.toList literal ∧
      Code.unitWritten literal (place - entry.generated.start) = some unit ∧ unit.2 = distance := by
  have within := contains_of_originDistance? led
  rw [originDistance?, if_pos within] at led
  simp only [escaped] at led
  obtain ⟨units, found, -⟩ := Option.bind_eq_some_iff.mp led
  obtain ⟨literal, covers⟩ := covers_of_units? found
  rw [units?_of_covers covers, Option.bind_some] at led
  obtain ⟨unit, last, same⟩ := Option.map_eq_some_iff.mp led
  exact ⟨literal, unit, covers, last, same⟩

theorem generatedDistance?_eq_some (escaped : entry.origin.kind = .text) {distance : Nat}
    (led : entry.generatedDistance? code offset = some distance) :
    ∃ literal unit, entry.generated.Covers code.toList literal ∧
      Code.unitRead literal (offset - entry.origin.span.start) = some unit ∧ unit.1 = distance := by
  have within := contains_of_generatedDistance? led
  rw [generatedDistance?, if_pos within] at led
  simp only [escaped] at led
  obtain ⟨units, found, -⟩ := Option.bind_eq_some_iff.mp led
  obtain ⟨literal, covers⟩ := covers_of_units? found
  rw [units?_of_covers covers, Option.bind_some] at led
  obtain ⟨unit, last, same⟩ := Option.map_eq_some_iff.mp led
  exact ⟨literal, unit, covers, last, same⟩

private theorem originDistance?_isSome_iff (escaped : entry.origin.kind = .text) :
    (entry.originDistance? code place).isSome = true ↔
      entry.generated.contains place = true ∧ (entry.generated.slice? code).isSome = true := by
  rw [Span.slice?_isSome_iff]
  constructor
  · intro carried
    obtain ⟨distance, led⟩ := Option.isSome_iff_exists.mp carried
    obtain ⟨literal, -, covers, -⟩ := originDistance?_eq_some escaped led
    exact ⟨contains_of_originDistance? led, literal, covers⟩
  · rintro ⟨within, literal, covers⟩
    rw [originDistance?_text escaped covers within, Option.isSome_map]
    exact Code.unitWritten_isSome literal _

private theorem generatedDistance?_isSome_iff (escaped : entry.origin.kind = .text) :
    (entry.generatedDistance? code offset).isSome = true ↔
      entry.origin.span.contains offset = true ∧ (entry.generated.slice? code).isSome = true := by
  rw [Span.slice?_isSome_iff]
  constructor
  · intro carried
    obtain ⟨distance, led⟩ := Option.isSome_iff_exists.mp carried
    obtain ⟨literal, -, covers, -⟩ := generatedDistance?_eq_some escaped led
    exact ⟨contains_of_generatedDistance? led, literal, covers⟩
  · rintro ⟨within, literal, covers⟩
    rw [generatedDistance?_text escaped covers within, Option.isSome_map]
    exact Code.unitRead_isSome literal _

theorem mapM_addOffsets_cases (base : Nat) (distance? : Option Nat) :
    distance? = none ∧ distance?.mapM (addOffsets base) = .ok none ∨
      ∃ distance, distance? = some distance ∧
        (base + distance < offsetBound ∧ distance?.mapM (addOffsets base) = .ok (some (base + distance)) ∨
          offsetBound ≤ base + distance ∧ distance?.mapM (addOffsets base) = .error ⟨⟩) := by
  cases distance? with
  | none => exact .inl ⟨rfl, rfl⟩
  | some distance =>
    refine .inr ⟨distance, rfl, ?_⟩
    have sum : (some distance).mapM (addOffsets base) = (addOffsets base distance).map some := rfl
    rw [sum, addOffsets]
    split
    next room => exact .inl ⟨room, rfl⟩
    next far => exact .inr ⟨Nat.not_lt.mp far, rfl⟩

/-- What becomes of an offset of the code. Cutting the literal never fails, only the last sum may. -/
theorem toOrigin?_ends (escaped : entry.origin.kind = .text) (code : String) (place : Nat) :
    match entry.toOrigin? code place with
    | .ok none => ¬(entry.generated.contains place = true ∧ (entry.generated.slice? code).isSome = true)
    | .ok (some offset) => (entry.generated.contains place = true ∧ (entry.generated.slice? code).isSome = true) ∧
      entry.origin.span.start ≤ offset ∧ offset ≤ entry.origin.span.start + (place - entry.generated.start)
    | .error _ => (entry.generated.contains place = true ∧ (entry.generated.slice? code).isSome = true) ∧
      offsetBound ≤ entry.origin.span.start + (place - entry.generated.start) := by
  rw [← originDistance?_isSome_iff escaped, toOrigin?]
  rcases mapM_addOffsets_cases entry.origin.span.start (entry.originDistance? code place) with
    ⟨nothing, ends⟩ | ⟨distance, led, carried⟩
  · rw [ends, nothing]
    exact Bool.false_ne_true
  · obtain ⟨literal, unit, -, found, rfl⟩ := originDistance?_eq_some escaped led
    have near := Code.unitWritten_le_distance found
    rcases carried with ⟨room, ends⟩ | ⟨far, ends⟩
    · rw [ends, led]
      exact ⟨rfl, Nat.le_add_right _ _, Nat.add_le_add_left near _⟩
    · rw [ends, led]
      exact ⟨rfl, Nat.le_trans far (Nat.add_le_add_left near _)⟩

private theorem toGenerated?_ends (escaped : entry.origin.kind = .text) (code : String) (offset : Nat) :
    match entry.toGenerated? code offset with
    | .ok none => ¬(entry.origin.span.contains offset = true ∧ (entry.generated.slice? code).isSome = true)
    | .ok (some place) => (entry.origin.span.contains offset = true ∧ (entry.generated.slice? code).isSome = true) ∧
      entry.generated.start ≤ place ∧ place ≤ entry.generated.stop
    | .error _ => (entry.origin.span.contains offset = true ∧ (entry.generated.slice? code).isSome = true) ∧
      offsetBound ≤ entry.generated.stop := by
  rw [← generatedDistance?_isSome_iff escaped, toGenerated?]
  rcases mapM_addOffsets_cases entry.generated.start (entry.generatedDistance? code offset) with
    ⟨nothing, ends⟩ | ⟨distance, led, carried⟩
  · rw [ends, nothing]
    exact Bool.false_ne_true
  · obtain ⟨literal, unit, covers, found, rfl⟩ := generatedDistance?_eq_some escaped led
    have near := Code.unitRead_le_width found
    have stop := covers.stop_eq
    rcases carried with ⟨room, ends⟩ | ⟨far, ends⟩
    · rw [ends, led]
      exact ⟨rfl, Nat.le_add_right _ _, by omega⟩
    · rw [ends, led]
      exact ⟨rfl, by omega⟩

private theorem toOrigin?_mono (escaped : entry.origin.kind = .text) {other last : Nat} (forward : place ≤ other)
    (here : entry.toOrigin? code place = .ok (some offset)) (there : entry.toOrigin? code other = .ok (some last)) :
    offset ≤ last := by
  obtain ⟨near, led, rfl, -⟩ := toOrigin?_eq_some_iff.mp here
  obtain ⟨far, leads, rfl, -⟩ := toOrigin?_eq_some_iff.mp there
  obtain ⟨literal, first, covers, found, rfl⟩ := originDistance?_eq_some escaped led
  obtain ⟨same, second, again, behind, rfl⟩ := originDistance?_eq_some escaped leads
  cases (Text.slice?_eq_some_iff.mpr covers).symm.trans (Text.slice?_eq_some_iff.mpr again)
  exact Nat.add_le_add_left (Code.unitWritten_le (Nat.sub_le_sub_right forward _) found behind) _

private theorem toGenerated?_mono (escaped : entry.origin.kind = .text) {other last : Nat} (forward : offset ≤ other)
    (here : entry.toGenerated? code offset = .ok (some place))
    (there : entry.toGenerated? code other = .ok (some last)) : place ≤ last := by
  obtain ⟨near, led, rfl, -⟩ := toGenerated?_eq_some_iff.mp here
  obtain ⟨far, leads, rfl, -⟩ := toGenerated?_eq_some_iff.mp there
  obtain ⟨literal, first, covers, found, rfl⟩ := generatedDistance?_eq_some escaped led
  obtain ⟨same, second, again, behind, rfl⟩ := generatedDistance?_eq_some escaped leads
  cases (Text.slice?_eq_some_iff.mpr covers).symm.trans (Text.slice?_eq_some_iff.mpr again)
  exact Nat.add_le_add_left (Code.unitRead_le (Nat.sub_le_sub_right forward _) found behind) _

/-- Whatever the literal, cutting it by byte offsets is a run of turns that begins at its start, gets ahead
on both sides with each turn, cuts between characters only, and stops where nothing is left. So for any entry
and any code, an offset of an escaped range is carried exactly if the code has that range, whole characters of
it; all that can fail then is the sum of the distance found and the start of the other range, when it is no
word. Offsets that are carried keep their order, both ways. -/
theorem offsets_ordered (literal : List Char) (entry : Projection) (code : String) :
    (Code.Cuts literal (0, 0) (Code.unitOffsets literal) ∧
      (Code.unitOffsets literal).length ≤ literal.length + 1 ∧
      (Code.unitOffsets literal).head? = some (0, 0) ∧
      (Code.unitOffsets literal).getLast?.map Prod.fst = some (width literal) ∧
      (Code.unitOffsets literal).Pairwise Code.Before ∧
      ∀ unit ∈ Code.unitOffsets literal, IsBoundary literal unit.1) ∧
    (entry.origin.kind = .text →
      (∀ place, match entry.toOrigin? code place with
        | .ok none => ¬(entry.generated.contains place = true ∧ (entry.generated.slice? code).isSome = true)
        | .ok (some offset) =>
          (entry.generated.contains place = true ∧ (entry.generated.slice? code).isSome = true) ∧
          entry.origin.span.start ≤ offset ∧ offset ≤ entry.origin.span.start + (place - entry.generated.start)
        | .error _ => (entry.generated.contains place = true ∧ (entry.generated.slice? code).isSome = true) ∧
          offsetBound ≤ entry.origin.span.start + (place - entry.generated.start)) ∧
      (∀ offset, match entry.toGenerated? code offset with
        | .ok none => ¬(entry.origin.span.contains offset = true ∧ (entry.generated.slice? code).isSome = true)
        | .ok (some place) =>
          (entry.origin.span.contains offset = true ∧ (entry.generated.slice? code).isSome = true) ∧
          entry.generated.start ≤ place ∧ place ≤ entry.generated.stop
        | .error _ => (entry.origin.span.contains offset = true ∧ (entry.generated.slice? code).isSome = true) ∧
          offsetBound ≤ entry.generated.stop) ∧
      (∀ place other offset last, place ≤ other → entry.toOrigin? code place = .ok (some offset) →
        entry.toOrigin? code other = .ok (some last) → offset ≤ last) ∧
      ∀ offset other place last, offset ≤ other → entry.toGenerated? code offset = .ok (some place) →
        entry.toGenerated? code other = .ok (some last) → place ≤ last) := by
  constructor
  · have cuts := Code.unitOffsets_cuts literal
    exact ⟨cuts, Code.length_unitOffsetsFrom_le 0 0 literal, cuts.head?_eq, cuts.getLast?_eq,
      (Code.unitOffsetsFrom_advance 0 0 literal).1, cuts.boundary⟩
  · intro escaped
    exact ⟨toOrigin?_ends escaped code, toGenerated?_ends escaped code, fun _ _ _ _ => toOrigin?_mono escaped,
      fun _ _ _ _ => toGenerated?_mono escaped⟩

def brokenLiteral : String := "\\n\\u€x\\"

def brokenEntry : Projection := ⟨⟨1, 10⟩, ⟨⟨"a"⟩, ⟨20, 28⟩, .text⟩, 0⟩

def brokenCode : String := "(" ++ brokenLiteral

theorem offsets_ordered_broken :
    Code.Cuts brokenLiteral.toList (0, 0) (Code.unitOffsets brokenLiteral.toList) ∧
    brokenEntry.origin.kind = .text ∧
    (brokenEntry.toOrigin? brokenCode 8 = .ok (some 21) ∧ brokenEntry.toOrigin? brokenCode 9 = .ok (some 27) ∧
      21 ≤ 27) ∧
    brokenEntry.toGenerated? brokenCode 21 = .ok (some 3) ∧ brokenEntry.toGenerated? brokenCode 27 = .ok (some 9) ∧
      3 ≤ 9 := by
  have escaped : brokenEntry.origin.kind = .text := rfl
  have near : brokenEntry.toGenerated? brokenCode 21 = .ok (some 3) := by decide +kernel
  have far : brokenEntry.toGenerated? brokenCode 27 = .ok (some 9) := by decide +kernel
  have first : brokenEntry.toOrigin? brokenCode 8 = .ok (some 21) := by decide +kernel
  have second : brokenEntry.toOrigin? brokenCode 9 = .ok (some 27) := by decide +kernel
  obtain ⟨⟨cuts, -⟩, carried⟩ := offsets_ordered brokenLiteral.toList brokenEntry brokenCode
  obtain ⟨-, -, offsets, places⟩ := carried escaped
  refine ⟨cuts, escaped, ⟨first, second, ?_⟩, near, far, ?_⟩
  · exact offsets 8 9 21 27 (by decide) first second
  · exact places 21 27 3 9 (by decide) near far

end Projection

end TextTemplate
