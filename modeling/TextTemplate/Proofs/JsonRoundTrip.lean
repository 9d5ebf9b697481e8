import TextTemplate.Json.Reader
import TextTemplate.Json.Writer

/-! Written JSON is read back. The scanner takes the text of a value to the tokens of the value, whatever
follows it, and the reader takes these tokens to the value, whatever lists and records are open around
it. Only a number leans on what follows: it goes on until a character that cannot belong to it. -/

namespace TextTemplate.Json

namespace Decimal

def isNumeric (c : Char) : Bool :=
  c.isDigit || c = '-' || c = '+' || c = '.' || c = 'e' || c = 'E'

private theorem isNumeric_of_isDigit {c : Char} (digit : c.isDigit = true) : isNumeric c = true := by
  simp [isNumeric, digit]

section
variable {text digits rest : List Char}

theorem digits?_eq_some (read : digits? text = some (digits, rest)) :
    text = digits ++ rest ∧ digits ≠ [] ∧ ∀ c ∈ digits, c.isDigit = true := by
  unfold digits? at read
  dsimp only at read
  split at read
  · cases read
  next nonempty =>
    cases read
    exact ⟨List.takeWhile_append_dropWhile.symm, fun empty => nonempty (List.isEmpty_iff.mpr empty),
      fun c member => List.all_eq_true.mp List.all_takeWhile c member⟩

theorem digits?_numeric (read : digits? text = some (digits, rest)) (later : ∀ c ∈ rest, isNumeric c = true) :
    ∀ c ∈ text, isNumeric c = true := by
  obtain ⟨rfl, -, figures⟩ := digits?_eq_some read
  exact List.forall_mem_append.mpr ⟨fun c member => isNumeric_of_isDigit (figures c member), later⟩

private theorem fraction?_numeric (read : fraction? text = some (digits, rest))
    (later : ∀ c ∈ rest, isNumeric c = true) :
    ∀ c ∈ text, isNumeric c = true := by
  unfold fraction? at read
  split at read
  · exact List.forall_mem_cons.mpr ⟨rfl, digits?_numeric read later⟩
  · cases read
    exact later

private theorem splitSign_numeric (later : ∀ c ∈ (splitSign text).2, isNumeric c = true) :
    ∀ c ∈ text, isNumeric c = true := by
  unfold splitSign at later
  split at later
  · exact List.forall_mem_cons.mpr ⟨rfl, later⟩
  · exact List.forall_mem_cons.mpr ⟨rfl, later⟩
  · exact later

private theorem exponentOf?_numeric {exponent? : Option (Bool × List Char)}
    (read : exponentOf? text = some exponent?) : ∀ c ∈ text, isNumeric c = true := by
  cases text with
  | nil => exact List.forall_mem_nil _
  | cons mark after =>
    simp only [exponentOf?] at read
    split at read
    next marked =>
      obtain ⟨parts, figures, whole⟩ := Option.bind_eq_some_iff.mp read
      split at whole
      next empty =>
        refine List.forall_mem_cons.mpr ⟨?_, splitSign_numeric (digits?_numeric figures ?_)⟩
        · rcases marked with rfl | rfl <;> rfl
        · rw [List.isEmpty_iff.mp empty]
          exact List.forall_mem_nil _
      · cases whole
    · cases read

end

theorem ofLiteral?_numeric {literal : List Char} (number : (ofLiteral? literal).isSome = true) :
    literal ≠ [] ∧ ∀ c ∈ literal, isNumeric c = true := by
  obtain ⟨decimal, read⟩ := Option.isSome_iff_exists.mp number
  obtain ⟨whole, figures, read⟩ := Option.bind_eq_some_iff.mp read
  split at read
  · cases read
  obtain ⟨fraction, part, read⟩ := Option.bind_eq_some_iff.mp read
  obtain ⟨exponent?, power, -⟩ := Option.map_eq_some_iff.mp read
  have unsigned := digits?_numeric figures (fraction?_numeric part (exponentOf?_numeric power))
  have some := (digits?_eq_some figures).2.1
  have spelled := (digits?_eq_some figures).1
  split at unsigned
  · exact ⟨List.cons_ne_nil _ _, List.forall_mem_cons.mpr ⟨rfl, unsigned⟩⟩
  · refine ⟨?_, unsigned⟩
    rintro rfl
    exact some (List.append_eq_nil_iff.mp spelled.symm).1

end Decimal

/-! The tokens of a value -/

mutual

def tokens : Json → List Token
  | .null => [.bare .null]
  | .bool value => [.bare (.bool value)]
  | .number literal => [.bare (.number literal)]
  | .string text? => [.string text?]
  | .list [] => [.openList, .closeList]
  | .list (item :: rest) => .openList :: item.tokens ++ itemTokens rest ++ [.closeList]
  | .record [] => [.openRecord, .closeRecord]
  | .record (member :: rest) =>
    .openRecord :: .string member.1 :: .colon :: member.2.tokens ++ memberTokens rest ++ [.closeRecord]

def itemTokens : List Json → List Token
  | [] => []
  | item :: rest => .comma :: item.tokens ++ itemTokens rest

def memberTokens : List (Option String × Json) → List Token
  | [] => []
  | member :: rest => .comma :: .string member.1 :: .colon :: member.2.tokens ++ memberTokens rest

end

namespace Scan

/-- The tokens of a text, when a scan goes on with it and comes to an end. -/
def continued (scan : Scan) (text : List Char) : Option (List Token) :=
  (text.foldlM step scan).bind finish?

theorem continued_cons {scan : Scan} {c : Char} (next : Scan) (taken : scan.step c = some next) (rest : List Char) :
    scan.continued (c :: rest) = next.continued rest := by
  rw [continued, List.foldlM_cons, taken]
  rfl

/-- Between tokens, whatever follows a word ends it. -/
def Ends (text : List Char) : Prop :=
  ∀ c ∈ text.head?, endsBare c = true

theorem ends_cons {c : Char} (ends : endsBare c = true) (rest : List Char) : Ends (c :: rest) := by
  intro first member
  cases member
  exact ends

section
variable (tokens : List Token)

private theorem continued_letters {letters : List Char} (kept : ∀ c ∈ letters, endsBare c = false)
    (before rest : List Char) :
    continued ⟨.bare before, tokens⟩ (letters ++ rest) =
      continued ⟨.bare (letters.reverse ++ before), tokens⟩ rest := by
  induction letters generalizing before with
  | nil => rfl
  | cons c more ih =>
    obtain ⟨first, later⟩ := List.forall_mem_cons.mp kept
    have taken : step ⟨.bare before, tokens⟩ c = some ⟨.bare (c :: before), tokens⟩ := by
      simp only [step, first, Bool.false_eq_true, if_false]
    rw [List.cons_append, continued_cons _ taken, ih later, List.reverse_cons, List.append_assoc]
    rfl

private theorem bare_of_any {letters : List Char} (none : letters.any endsBare = false) :
    ∀ c ∈ letters, endsBare c = false :=
  fun c member => Bool.eq_false_iff.mpr (List.any_eq_false.mp none c member)

private theorem continued_word {letters rest : List Char} {token : Token} (nonempty : letters ≠ [])
    (kept : ∀ c ∈ letters, endsBare c = false) (named : Token.ofBare? letters = some token) (ends : Ends rest) :
    continued ⟨.gap, tokens⟩ (letters ++ rest) = continued ⟨.gap, token :: tokens⟩ rest := by
  obtain ⟨c, more, rfl⟩ := List.exists_cons_of_ne_nil nonempty
  obtain ⟨first, later⟩ := List.forall_mem_cons.mp kept
  have begun : step ⟨.gap, tokens⟩ c = some ⟨.bare [c], tokens⟩ := by
    simp only [endsBare, Bool.or_eq_false_iff, decide_eq_false_iff_not, Option.isSome_eq_false_iff,
      Option.isNone_iff_eq_none] at first
    simp only [step, start, first.1.1, first.1.2, first.2, Bool.false_eq_true, if_false]
  rw [List.cons_append, continued_cons _ begun, continued_letters tokens later, ← List.reverse_cons]
  cases rest with
  | nil => simp only [continued, List.foldlM_nil, pure, Option.bind_some, finish?, List.reverse_reverse, named,
      Option.map_some]
  | cons d after =>
    have ended : step ⟨.bare (c :: more).reverse, tokens⟩ d = some (start (token :: tokens) d) := by
      simp only [step, ends d rfl, if_true, List.reverse_reverse, named, Option.map_some]
    rw [continued_cons _ ended, continued_cons _ rfl]

private theorem hexDigit?_hexChar : ∀ digit < 16, Text.hexDigit? (hexChar digit) = some digit := by
  decide

private theorem continued_quoteChar (codes : List Nat) (c : Char) (rest : List Char) :
    continued ⟨.quoted codes, tokens⟩ (quoteChar c ++ rest) =
      continued ⟨.quoted (c.toNat :: codes), tokens⟩ rest := by
  unfold quoteChar
  split
  case h_8 quote backslash _ _ _ _ _ =>
    split
    next control =>
      have high := hexDigit?_hexChar (c.toNat / 16) (by omega)
      have low := hexDigit?_hexChar (c.toNat % 16) (by omega)
      have third : step ⟨.numbered codes 2 0, tokens⟩ (hexChar (c.toNat / 16)) =
          some ⟨.numbered codes 1 (c.toNat / 16), tokens⟩ := by
        simp [step, stepNumbered, high]
      have fourth : step ⟨.numbered codes 1 (c.toNat / 16), tokens⟩ (hexChar (c.toNat % 16)) =
          some ⟨.quoted (c.toNat :: codes), tokens⟩ := by
        have whole : c.toNat / 16 * 16 + c.toNat % 16 = c.toNat := Nat.div_add_mod' _ _
        simp [step, stepNumbered, low, whole]
      change continued _ ('\\' :: 'u' :: '0' :: '0' :: hexChar _ :: hexChar _ :: rest) = _
      rw [continued_cons ⟨.escaped codes, tokens⟩ rfl,
        continued_cons ⟨.numbered codes 4 0, tokens⟩ rfl,
        continued_cons ⟨.numbered codes 3 0, tokens⟩ rfl,
        continued_cons ⟨.numbered codes 2 0, tokens⟩ rfl,
        continued_cons _ third, continued_cons _ fourth]
    next printable =>
      apply continued_cons
      simp only [step]
      rw [if_neg quote, if_neg backslash, if_neg printable]
  all_goals rfl

private theorem decodeCodes?_toNat (text : List Char) : decodeCodes? (text.map Char.toNat) = some text := by
  have basic (c : Char) : isHighSurrogate c.toNat = false ∧ isLowSurrogate c.toNat = false := by
    have valid : c.toNat < 0xd800 ∨ 0xdfff < c.toNat ∧ c.toNat < 0x110000 := c.valid
    simp only [isHighSurrogate, isLowSurrogate, Bool.and_eq_false_iff, decide_eq_false_iff_not]
    omega
  induction text with
  | nil => rfl
  | cons c rest ih =>
    obtain ⟨high, low⟩ := basic c
    cases rest with
    | nil => simp [decodeCodes?, high, low]
    | cons d more =>
      rw [List.map_cons] at ih
      simp [decodeCodes?, high, low, ih]

private theorem continued_quote (text : String) (rest : List Char) :
    continued ⟨.gap, tokens⟩ (quote (some text) ++ rest) = continued ⟨.gap, .string (some text) :: tokens⟩ rest := by
  have characters (part : List Char) (codes : List Nat) (rest : List Char) :
      continued ⟨.quoted codes, tokens⟩ (part.flatMap quoteChar ++ rest) =
        continued ⟨.quoted ((part.map Char.toNat).reverse ++ codes), tokens⟩ rest := by
    induction part generalizing codes with
    | nil => rfl
    | cons c more ih =>
      rw [List.flatMap_cons, List.append_assoc, continued_quoteChar, ih, List.map_cons, List.reverse_cons,
        List.append_assoc]
      rfl
  have closed : step ⟨.quoted (text.toList.map Char.toNat).reverse, tokens⟩ '"' =
      some ⟨.gap, .string (some text) :: tokens⟩ := by
    simp only [step, if_true, List.reverse_reverse, decodeCodes?_toNat, Option.map_some, String.ofList_toList]
  rw [quote, List.cons_append, List.cons_append, continued_cons ⟨.quoted [], tokens⟩ rfl,
    List.append_assoc, characters, List.append_nil, List.singleton_append, continued_cons _ closed]

end

end Scan

private theorem ofBare?_number {literal : List Char} (number : (Decimal.ofLiteral? literal).isSome = true) :
    Token.ofBare? literal = some (.bare (.number literal)) := by
  have figures := (Decimal.ofLiteral?_numeric number).2
  have apart {word : List Char} {c : Char} (member : c ∈ word) (letter : Decimal.isNumeric c = false) :
      literal ≠ word := by
    rintro rfl
    rw [figures c member] at letter
    cases letter
  rw [Token.ofBare?, if_neg (apart List.mem_cons_self rfl), if_neg (apart List.mem_cons_self rfl),
    if_neg (apart List.mem_cons_self rfl), if_pos number]

private theorem endsBare_of_isNumeric {c : Char} (figure : Decimal.isNumeric c = true) : Scan.endsBare c = false := by
  have apart (d : Char) (other : Decimal.isNumeric d = false) : c ≠ d := by
    rintro rfl
    rw [figure] at other
    cases other
  have punctuation : Token.punctuation? c = none := by
    unfold Token.punctuation?
    split
    case h_7 => rfl
    all_goals exact absurd rfl (apart _ rfl)
  simp only [Scan.endsBare, isGap, punctuation, apart ' ' rfl, apart '\t' rfl, apart '\n' rfl, apart '\r' rfl,
    apart '"' rfl, decide_false, Option.isSome_none, Bool.or_self]

private theorem ends_writeItems (items : List Json) {rest : List Char} (ends : Scan.Ends rest) :
    Scan.Ends (writeItems items ++ rest) := by
  cases items with
  | nil => exact ends
  | cons item more => exact Scan.ends_cons rfl _

private theorem ends_writeMembers (members : List (Option String × Json)) {rest : List Char} (ends : Scan.Ends rest) :
    Scan.Ends (writeMembers members ++ rest) := by
  cases members with
  | nil => exact ends
  | cons member more => exact Scan.ends_cons rfl _

mutual

/-- The text of a proper value is scanned as its tokens. -/
theorem scan_write (value : Json) (proper : value.isProper = true) (before : List Token) {rest : List Char}
    (ends : Scan.Ends rest) :
    Scan.continued ⟨.gap, before⟩ (value.write ++ rest) =
      Scan.continued ⟨.gap, value.tokens.reverse ++ before⟩ rest := by
  cases value with
  | null => exact Scan.continued_word before (List.cons_ne_nil _ _) (Scan.bare_of_any rfl) rfl ends
  | bool value =>
    cases value <;>
      exact Scan.continued_word before (List.cons_ne_nil _ _) (Scan.bare_of_any rfl) rfl ends
  | number literal =>
    have number : (Decimal.ofLiteral? literal).isSome = true := by
      cases read : Decimal.ofLiteral? literal with
      | none => simp [isProper, read] at proper
      | some decimal => rfl
    obtain ⟨nonempty, figures⟩ := Decimal.ofLiteral?_numeric number
    exact Scan.continued_word before nonempty (fun c member => endsBare_of_isNumeric (figures c member))
      (ofBare?_number number) ends
  | string text? =>
    cases text? with
    | none => cases proper
    | some text => exact Scan.continued_quote before text rest
  | list items =>
    cases items with
    | nil => rfl
    | cons item more =>
      obtain ⟨first, later⟩ := (Bool.and_eq_true _ _).mp proper
      have closing : Scan.Ends (']' :: rest) := Scan.ends_cons rfl rest
      simp only [write, tokens, List.cons_append, List.append_assoc, List.nil_append]
      rw [Scan.continued_cons ⟨.gap, .openList :: before⟩ rfl,
        scan_write item first _ (ends_writeItems more closing), scan_writeItems more later _ closing,
        Scan.continued_cons ⟨.gap, .closeList :: _⟩ rfl]
      simp
  | record members =>
    cases members with
    | nil => rfl
    | cons member more =>
      cases member with
      | mk name inner =>
        cases name with
        | none => cases proper
        | some name =>
          obtain ⟨first, later⟩ := (Bool.and_eq_true _ _).mp proper
          have closing : Scan.Ends ('\x7d' :: rest) := Scan.ends_cons rfl rest
          simp only [write, tokens, List.cons_append, List.append_assoc, List.nil_append]
          rw [Scan.continued_cons ⟨.gap, .openRecord :: before⟩ rfl, Scan.continued_quote,
            Scan.continued_cons ⟨.gap, .colon :: _⟩ rfl, scan_write inner first _ (ends_writeMembers more closing),
            scan_writeMembers more later _ closing, Scan.continued_cons ⟨.gap, .closeRecord :: _⟩ rfl]
          simp
  termination_by sizeOf value

theorem scan_writeItems (items : List Json) (proper : areProper items = true) (before : List Token)
    {rest : List Char} (ends : Scan.Ends rest) :
    Scan.continued ⟨.gap, before⟩ (writeItems items ++ rest) =
      Scan.continued ⟨.gap, (itemTokens items).reverse ++ before⟩ rest := by
  cases items with
  | nil => rfl
  | cons item more =>
    obtain ⟨first, later⟩ := (Bool.and_eq_true _ _).mp proper
    simp only [writeItems, itemTokens, List.cons_append, List.append_assoc]
    rw [Scan.continued_cons ⟨.gap, .comma :: before⟩ rfl, scan_write item first _ (ends_writeItems more ends),
      scan_writeItems more later _ ends]
    simp
  termination_by sizeOf items

theorem scan_writeMembers (members : List (Option String × Json)) (proper : areProperMembers members = true)
    (before : List Token) {rest : List Char} (ends : Scan.Ends rest) :
    Scan.continued ⟨.gap, before⟩ (writeMembers members ++ rest) =
      Scan.continued ⟨.gap, (memberTokens members).reverse ++ before⟩ rest := by
  cases members with
  | nil => rfl
  | cons member more =>
    cases member with
    | mk name inner =>
      cases name with
      | none => cases proper
      | some name =>
        obtain ⟨first, later⟩ := (Bool.and_eq_true _ _).mp proper
        simp only [writeMembers, memberTokens, List.cons_append, List.append_assoc]
        rw [Scan.continued_cons ⟨.gap, .comma :: before⟩ rfl, Scan.continued_quote,
          Scan.continued_cons ⟨.gap, .colon :: _⟩ rfl, scan_write inner first _ (ends_writeMembers more ends),
          scan_writeMembers more later _ ends]
        simp
  termination_by sizeOf members

end

private theorem tokens?_write {value : Json} (proper : value.isProper = true) :
    tokens? value.write = some value.tokens := by
  have ends : Scan.Ends [] := fun _ member => by cases member
  have scanned := scan_write value proper [] ends
  rw [List.append_nil, List.append_nil] at scanned
  refine scanned.trans ?_
  simp [Scan.continued, Scan.finish?]

/-! The value of the tokens -/

namespace Reading

def continued (reading : Reading) (tokens : List Token) : Option Json :=
  (tokens.foldlM step reading).bind finish?

private theorem continued_cons {reading : Reading} {token : Token} (next : Reading)
    (taken : reading.step token = some next) (rest : List Token) :
    reading.continued (token :: rest) = next.continued rest := by
  rw [continued, List.foldlM_cons, taken]
  rfl

end Reading

/-- No value starts like the end of a list, so behind an open bracket it is the first item. -/
theorem continued_first (item : Json) (holes : List Hole) (rest : List Token) :
    Reading.continued (.listStart holes) (item.tokens ++ rest) =
      Reading.continued (.value (.item [] :: holes)) (item.tokens ++ rest) := by
  cases item with
  | list items => cases items <;> rfl
  | record members => cases members <;> rfl
  | _ => rfl

mutual

theorem read_tokens (value : Json) (holes : List Hole) (rest : List Token) :
    Reading.continued (.value holes) (value.tokens ++ rest) = Reading.continued (.filled holes value) rest := by
  cases value with
  | list items =>
    cases items with
    | nil => rfl
    | cons item more =>
      simp only [tokens, List.cons_append, List.append_assoc, List.nil_append]
      rw [Reading.continued_cons (.listStart holes) rfl, continued_first, read_tokens item, read_itemTokens more]
      rfl
  | record members =>
    cases members with
    | nil => rfl
    | cons member more =>
      cases member with
      | mk name inner =>
        simp only [tokens, List.cons_append, List.append_assoc, List.nil_append]
        rw [Reading.continued_cons (.recordStart holes) rfl, Reading.continued_cons (.colon holes [] name) rfl,
          Reading.continued_cons (.value (.member [] name :: holes)) rfl, read_tokens inner,
          read_memberTokens more]
        rfl
  | _ => rfl
  termination_by sizeOf value

/-- The items behind the last one fill the list that is open around them. -/
theorem read_itemTokens (items : List Json) (last : Json) (before : List Json) (holes : List Hole)
    (rest : List Token) :
    Reading.continued (.filled (.item before :: holes) last) (itemTokens items ++ .closeList :: rest) =
      Reading.continued (.filled holes (.list ((last :: before).reverse ++ items))) rest := by
  cases items with
  | nil =>
    rw [List.append_nil]
    rfl
  | cons item more =>
    simp only [itemTokens, List.cons_append, List.append_assoc]
    rw [Reading.continued_cons (.value (.item (last :: before) :: holes)) rfl, read_tokens item,
      read_itemTokens more, List.reverse_cons, List.append_assoc]
    rfl
  termination_by sizeOf items

theorem read_memberTokens (members : List (Option String × Json)) (name : Option String) (last : Json)
    (before : List (Option String × Json)) (holes : List Hole) (rest : List Token) :
    Reading.continued (.filled (.member before name :: holes) last) (memberTokens members ++ .closeRecord :: rest) =
      Reading.continued (.filled holes (.record (((name, last) :: before).reverse ++ members))) rest := by
  cases members with
  | nil =>
    rw [List.append_nil]
    rfl
  | cons member more =>
    cases member with
    | mk next inner =>
      simp only [memberTokens, List.cons_append, List.append_assoc]
      rw [Reading.continued_cons (.key holes ((name, last) :: before)) rfl,
        Reading.continued_cons (.colon holes ((name, last) :: before) next) rfl,
        Reading.continued_cons (.value (.member ((name, last) :: before) next :: holes)) rfl, read_tokens inner,
        read_memberTokens more, List.reverse_cons, List.append_assoc]
      rfl
  termination_by sizeOf members

end

private theorem ofTokens?_tokens (value : Json) : ofTokens? value.tokens = some value := by
  have read := read_tokens value [] []
  rw [List.append_nil] at read
  exact read

/-- Written JSON is read back, if its strings are texts and its numbers finite. -/
theorem read?_render {value : Json} (proper : value.isProper = true) : read? value.render = some value := by
  rw [read?, render, String.toList_ofList, tokens?_write proper, Option.bind_some, ofTokens?_tokens]

end TextTemplate.Json
