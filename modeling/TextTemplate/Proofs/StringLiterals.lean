import TextTemplate.Proofs.EscapedUnits
import TextTemplate.Proofs.LiteralRuns

/-! Escaped text as a reader of programs sees it. It is the body of a string literal by the grammar of
literals, which leaves no choice of what it denotes; a scanner closes the literal behind it, whatever
follows; and it stays on its line. So text of a template cannot leave the literal it was put into. -/

namespace TextTemplate
open Text

namespace Code

def endsLine (c : Char) : Bool :=
  c = '\n' || c = '\r' || c = '\u0085' || c = '\u2028' || c = '\u2029'

theorem onLine_of_any {letters : List Char} (none : letters.any endsLine = false) :
    ∀ c ∈ letters, endsLine c = false :=
  fun c member => Bool.eq_false_iff.mpr (List.any_eq_false.mp none c member)

/-- The body of the literal that a text is about to close, and what follows its quote. A backslash takes
the next character with it; the first quote that is not taken ends the literal. -/
def scanLiteral? : List Char → Option (List Char × List Char)
  | [] => none
  | '"' :: rest => some ([], rest)
  | '\\' :: [] => none
  | '\\' :: taken :: rest => (scanLiteral? rest).map fun parts => ('\\' :: taken :: parts.1, parts.2)
  | c :: rest => (scanLiteral? rest).map fun parts => (c :: parts.1, parts.2)

/-- The escape sequences, each with the character that it denotes. -/
inductive EscapeForm : List Char → Char → Prop where
  | backslash : EscapeForm ['\\', '\\'] '\\'
  | quote : EscapeForm ['\\', '"'] '"'
  | lineFeed : EscapeForm ['\\', 'n'] '\n'
  | carriageReturn : EscapeForm ['\\', 'r'] '\r'
  | tab : EscapeForm ['\\', 't'] '\t'
  | null : EscapeForm ['\\', '0'] '\x00'
  | code {digits : List Char} {c : Char} (four : digits.length = 4)
      (named : hexNumberFrom? 0 digits = some c.toNat) : EscapeForm ('\\' :: 'u' :: digits) c

structure IsPlain (c : Char) : Prop where
  quote : c ≠ '"'
  backslash : c ≠ '\\'
  line : endsLine c = false

inductive Denotes : List Char → List Char → Prop where
  | nil : Denotes [] []
  | plain {c : Char} {body text : List Char} (plain : IsPlain c) (rest : Denotes body text) :
      Denotes (c :: body) (c :: text)
  | escape {form : List Char} {c : Char} {body text : List Char} (escaped : EscapeForm form c)
      (rest : Denotes body text) : Denotes (form ++ body) (c :: text)

theorem isPlain_of_hexDigit {c : Char} (digit : (hexDigit? c).isSome) : IsPlain c ∧ c ≠ '+' := by
  have apart (d : Char) (other : hexDigit? d = none) : c ≠ d := by
    rintro rfl
    rw [other] at digit
    cases digit
  have line : endsLine c = false := by
    simp only [endsLine, Bool.or_eq_false_iff, decide_eq_false_iff_not]
    exact ⟨⟨⟨⟨apart _ rfl, apart _ rfl⟩, apart _ rfl⟩, apart _ rfl⟩, apart _ rfl⟩
  exact ⟨⟨apart _ rfl, apart _ rfl, line⟩, apart _ rfl⟩

theorem hexDigits_of_number {value number : Nat} {digits : List Char}
    (read : hexNumberFrom? value digits = some number) : ∀ c ∈ digits, (hexDigit? c).isSome := by
  induction digits generalizing value with
  | nil => exact List.forall_mem_nil _
  | cons first rest ih =>
    obtain ⟨digit, here, later⟩ := Option.bind_eq_some_iff.mp read
    exact List.forall_mem_cons.mpr ⟨Option.isSome_of_eq_some here, ih later⟩

theorem scanLiteral?_cons {c : Char} (plain : IsPlain c) (rest : List Char) :
    scanLiteral? (c :: rest) = (scanLiteral? rest).map fun parts => (c :: parts.1, parts.2) := by
  rw [scanLiteral?]
  · exact plain.quote
  · exact fun same _ => plain.backslash same
  · exact fun _ _ same _ => plain.backslash same

private theorem scanLiteral?_append {part : List Char} (plain : ∀ c ∈ part, IsPlain c) (rest : List Char) :
    scanLiteral? (part ++ rest) = (scanLiteral? rest).map fun parts => (part ++ parts.1, parts.2) := by
  induction part with
  | nil => simp
  | cons c more ih =>
    obtain ⟨first, later⟩ := List.forall_mem_cons.mp plain
    rw [List.cons_append, scanLiteral?_cons first, ih later, Option.map_map]
    rfl

namespace EscapeForm
variable {form : List Char} {c : Char}

private theorem scan (escaped : EscapeForm form c) (rest : List Char) :
    scanLiteral? (form ++ rest) = (scanLiteral? rest).map fun parts => (form ++ parts.1, parts.2) := by
  cases escaped with
  | code four named =>
    have digits := fun c member => (isPlain_of_hexDigit (hexDigits_of_number named c member)).1
    rw [List.cons_append, List.cons_append, scanLiteral?, scanLiteral?_append digits, Option.map_map]
    rfl
  | _ => rfl

private theorem onLine (escaped : EscapeForm form c) : ∀ d ∈ form, endsLine d = false := by
  cases escaped with
  | code four named =>
    have digits := fun c member => (isPlain_of_hexDigit (hexDigits_of_number named c member)).1.line
    exact List.forall_mem_cons.mpr ⟨rfl, List.forall_mem_cons.mpr ⟨rfl, digits⟩⟩
  | _ => exact onLine_of_any rfl

private theorem unescape (escaped : EscapeForm form c) (rest : List Char) :
    unescapeChars (form ++ rest) = c :: unescapeChars rest := by
  cases escaped with
  | @code digits _ four named =>
    have valid : c.toNat.isValidChar := c.valid
    have character : namedChar? digits = some c := by
      unfold namedChar?
      split
      next more =>
        have signed := hexDigits_of_number named '+' List.mem_cons_self
        exact absurd rfl (isPlain_of_hexDigit signed).2
      next =>
        cases digits with
        | nil => cases four
        | cons first more => simp [named, valid]
    rw [List.cons_append, List.cons_append, unescapeChars, List.take_left' four, List.drop_left' four, character]
    rfl
  | _ =>
    rw [List.cons_append, List.cons_append, List.nil_append, unescapeChars]
    · rfl
    · decide

end EscapeForm

namespace Denotes
variable {body text : List Char}

/-- The quote behind a body closes the literal, whatever the body denotes and whatever follows. -/
theorem scan (denotes : Denotes body text) (following : List Char) :
    scanLiteral? (body ++ '"' :: following) = some (body, following) := by
  induction denotes with
  | nil => rfl
  | plain plain rest ih => rw [List.cons_append, scanLiteral?_cons plain, ih, Option.map_some]
  | escape escaped rest ih => rw [List.append_assoc, escaped.scan, ih, Option.map_some]

theorem onLine (denotes : Denotes body text) : ∀ c ∈ body, endsLine c = false := by
  induction denotes with
  | nil => exact List.forall_mem_nil _
  | plain plain rest ih => exact List.forall_mem_cons.mpr ⟨plain.line, ih⟩
  | escape escaped rest ih => exact List.forall_mem_append.mpr ⟨escaped.onLine, ih⟩

theorem unescape (denotes : Denotes body text) : unescapeChars body = text := by
  induction denotes with
  | nil => rw [unescapeChars]
  | plain plain rest ih =>
    rw [unescapeChars, ih]
    · exact fun _ same _ => plain.backslash same
    · exact fun _ _ same _ => plain.backslash same
  | escape escaped rest ih => rw [escaped.unescape, ih]

end Denotes

private theorem escapeChar_form (c : Char) : (escapeChar c = [c] ∧ IsPlain c) ∨ EscapeForm (escapeChar c) c := by
  unfold escapeChar
  split
  case h_1 => exact .inr .backslash
  case h_2 => exact .inr .quote
  case h_3 => exact .inr .lineFeed
  case h_4 => exact .inr .carriageReturn
  case h_5 => exact .inr .tab
  case h_6 => exact .inr .null
  case h_7 => exact .inr (.code rfl rfl)
  case h_8 => exact .inr (.code rfl rfl)
  case h_9 => exact .inr (.code rfl rfl)
  case h_10 backslash quote feed carriage _ _ next separator paragraph =>
    refine .inl ⟨rfl, quote, backslash, ?_⟩
    simp only [endsLine, Bool.or_eq_false_iff, decide_eq_false_iff_not]
    exact ⟨⟨⟨⟨feed, carriage⟩, next⟩, separator⟩, paragraph⟩

theorem escapeChars_denotes (text : List Char) : Denotes (escapeChars text) text := by
  induction text with
  | nil => exact .nil
  | cons c rest ih =>
    rw [escapeChars_cons]
    rcases escapeChar_form c with ⟨itself, plain⟩ | escaped
    · rw [itself]
      exact .plain plain ih
    · exact .escape escaped ih

theorem scanLiteral?_escape (text : String) (following : List Char) :
    scanLiteral? ((escape text).toList ++ '"' :: following) = some ((escape text).toList, following) := by
  rw [toList_escape]
  exact (escapeChars_denotes text.toList).scan following

private theorem escape_onLine (text : String) : ∀ c ∈ (escape text).toList, endsLine c = false := by
  rw [toList_escape]
  exact (escapeChars_denotes text.toList).onLine

theorem denotes_escape_iff {text : String} {denoted : List Char} :
    Denotes (escape text).toList denoted ↔ denoted = text.toList := by
  rw [toList_escape]
  constructor
  · intro denotes
    exact denotes.unescape.symm.trans (unescapeChars_escapeChars text.toList)
  · rintro rfl
    exact escapeChars_denotes text.toList

end Code

def writeEnding : String := ");\n"

/-- Every text is escaped to the body of a literal that denotes it and nothing else: the next quote closes
the literal, whatever follows it, and no character of the body ends a line. So each statement of a
flushed run is a line of its own, and the text it writes ends where its literal does. -/
theorem Code.escape_wellFormed :
    (∀ text : String,
      (∀ following, scanLiteral? ((escape text).toList ++ '"' :: following) =
        some ((escape text).toList, following)) ∧
      (∀ c ∈ (escape text).toList, endsLine c = false) ∧
      ∀ denoted, Denotes (escape text).toList denoted ↔ denoted = text.toList) ∧
    ∀ (state : LiteralState) (boundary : Boundary) (source : SourceId), ∃ lines : List String,
      String.join lines = String.join (state.segments.map Segment.text) ∧
      (state.flush boundary source).2.lines = lines.length ∧
      ((state.flush boundary source).2.pieces.map Piece.text =
        lines.flatMap fun line => [writeOpening, escape line, writeClosing]) ∧
      ∀ line ∈ lines,
        (∃ statement, (writeOpening ++ escape line ++ writeClosing).toList = statement ++ ['\n'] ∧
          ∀ c ∈ statement, endsLine c = false) ∧
        ∀ following, scanLiteral? ((escape line ++ writeClosing).toList ++ following) =
          some ((escape line).toList, writeEnding.toList ++ following) := by
  refine ⟨fun text => ⟨scanLiteral?_escape text, escape_onLine text, fun _ => denotes_escape_iff⟩,
    fun state boundary source => ?_⟩
  refine ⟨(state.segments.flatMap Segment.lines).map String.ofList,
    Segment.join_allLines state.segments, (List.length_map _).symm,
    Emission.ofSegments_texts source state.segments, fun line _ => ⟨?_, fun following => ?_⟩⟩
  · refine ⟨writeOpening.toList ++ (escape line).toList ++ ['"', ')', ';'], ?_, ?_⟩
    · simp only [String.toList_append, List.append_assoc, writeClosing]
      rfl
    · refine List.forall_mem_append.mpr ⟨List.forall_mem_append.mpr ⟨?_, escape_onLine line⟩, ?_⟩
      · exact onLine_of_any rfl
      · exact onLine_of_any rfl
  · rw [String.toList_append, List.append_assoc]
    exact scanLiteral?_escape line (writeEnding.toList ++ following)

end TextTemplate
