import TextTemplate.Json.Value
import TextTemplate.Text.Hex

/-!
Tokens of JSON text. The scanner reads character by character and is strict: no raw control
character in a string, no unknown escape, no word but the three literals.
-/

namespace TextTemplate.Json

inductive Token where
  | openList
  | closeList
  | openRecord
  | closeRecord
  | comma
  | colon
  /-- A string; nothing for one that is not a text. -/
  | string (text? : Option String)
  | bare (value : Json)
  deriving Inhabited

def isGap (c : Char) : Bool :=
  c = ' ' || c = '\t' || c = '\n' || c = '\r'

def Token.punctuation? : Char → Option Token
  | '[' => some .openList
  | ']' => some .closeList
  | '\x7b' => some .openRecord
  | '\x7d' => some .closeRecord
  | ',' => some .comma
  | ':' => some .colon
  | _ => none

/-- The token of a run of characters that are neither blanks, quotes nor punctuation. -/
def Token.ofBare? (letters : List Char) : Option Token :=
  if letters = ['n', 'u', 'l', 'l'] then some (.bare .null)
  else if letters = ['t', 'r', 'u', 'e'] then some (.bare (.bool true))
  else if letters = ['f', 'a', 'l', 's', 'e'] then some (.bare (.bool false))
  else if (Decimal.ofLiteral? letters).isSome then some (.bare (.number letters))
  else none

def isHighSurrogate (code : Nat) : Bool := 0xd800 ≤ code && code < 0xdc00

def isLowSurrogate (code : Nat) : Bool := 0xdc00 ≤ code && code < 0xe000

def pairedChar (high low : Nat) : Char :=
  Char.ofNat (0x10000 + (high - 0xd800) * 0x400 + (low - 0xdc00))

/-- The characters of codes in which a character above the basic plane may be a surrogate pair;
nothing when half of a pair stands alone. -/
def decodeCodes? : List Nat → Option (List Char)
  | [] => some []
  | [code] =>
    if isHighSurrogate code || isLowSurrogate code then none else some [Char.ofNat code]
  | code :: next :: rest =>
    if isHighSurrogate code then
      if isLowSurrogate next then (decodeCodes? rest).map (pairedChar code next :: ·) else none
    else if isLowSurrogate code then
      none
    else
      (decodeCodes? (next :: rest)).map (Char.ofNat code :: ·)

/-- The character a one-letter escape stands for. -/
def shortEscape? : Char → Option Char
  | '"' => some '"'
  | '\\' => some '\\'
  | '/' => some '/'
  | 'b' => some '\x08'
  | 'f' => some '\x0c'
  | 'n' => some '\n'
  | 'r' => some '\r'
  | 't' => some '\t'
  | _ => none

/-- What the scanner is in the middle of. Letters and codes are kept latest first. -/
inductive ScanMode where
  | gap
  | bare (letters : List Char)
  | quoted (codes : List Nat)
  | escaped (codes : List Nat)
  /-- An escape by number: how many digits are missing, and the value of those read. -/
  | numbered (codes : List Nat) (missing value : Nat)
  deriving Inhabited

/-- A scan under way, with the tokens found so far, latest first. -/
structure Scan where
  mode : ScanMode := .gap
  tokens : List Token := []
  deriving Inhabited

namespace Scan

/-- Begins what a character between tokens begins. -/
def start (tokens : List Token) (c : Char) : Scan :=
  if isGap c then
    ⟨.gap, tokens⟩
  else if c = '"' then
    ⟨.quoted [], tokens⟩
  else
    match Token.punctuation? c with
    | some token => ⟨.gap, token :: tokens⟩
    | none => ⟨.bare [c], tokens⟩

def endsBare (c : Char) : Bool :=
  isGap c || c = '"' || (Token.punctuation? c).isSome

def stepNumbered (tokens : List Token) (codes : List Nat) (missing value : Nat) (c : Char) :
    Option Scan :=
  (Text.hexDigit? c).map fun digit =>
    if missing ≤ 1 then
      ⟨.quoted ((value * 16 + digit) :: codes), tokens⟩
    else
      ⟨.numbered codes (missing - 1) (value * 16 + digit), tokens⟩

def step (scan : Scan) (c : Char) : Option Scan :=
  match scan.mode with
  | .gap => some (start scan.tokens c)
  | .bare letters =>
    if endsBare c then
      (Token.ofBare? letters.reverse).map fun token => start (token :: scan.tokens) c
    else
      some ⟨.bare (c :: letters), scan.tokens⟩
  | .quoted codes =>
    if c = '"' then
      some ⟨.gap, .string ((decodeCodes? codes.reverse).map String.ofList) :: scan.tokens⟩
    else if c = '\\' then
      some ⟨.escaped codes, scan.tokens⟩
    else if c.toNat < 0x20 then
      none
    else
      some ⟨.quoted (c.toNat :: codes), scan.tokens⟩
  | .escaped codes =>
    if c = 'u' then
      some ⟨.numbered codes 4 0, scan.tokens⟩
    else
      (shortEscape? c).map fun short => ⟨.quoted (short.toNat :: codes), scan.tokens⟩
  | .numbered codes missing value => stepNumbered scan.tokens codes missing value c

def finish? (scan : Scan) : Option (List Token) :=
  match scan.mode with
  | .gap => some scan.tokens.reverse
  | .bare letters =>
    (Token.ofBare? letters.reverse).map fun token => (token :: scan.tokens).reverse
  | .quoted _ => none
  | .escaped _ => none
  | .numbered _ _ _ => none

end Scan

def tokens? (text : List Char) : Option (List Token) :=
  (text.foldlM Scan.step {}).bind Scan.finish?

end TextTemplate.Json
