import TextTemplate.Text.Hex
import TextTemplate.Text.Width

/-!
The body of a regular C# string literal: `escape` writes any text on one line without a bare
quote, `unescape` reads it back.
-/

namespace TextTemplate.Code

/-- One character inside a string literal. The characters C# reads as line ends are written
as escapes, so that a literal never spans lines. -/
def escapeChar (c : Char) : List Char :=
  match c with
  | '\\' => ['\\', '\\']
  | '"' => ['\\', '"']
  | '\n' => ['\\', 'n']
  | '\r' => ['\\', 'r']
  | '\t' => ['\\', 't']
  | '\x00' => ['\\', '0']
  | '\u0085' => ['\\', 'u', '0', '0', '8', '5']
  | '\u2028' => ['\\', 'u', '2', '0', '2', '8']
  | '\u2029' => ['\\', 'u', '2', '0', '2', '9']
  | _ => [c]

def escapeChars (text : List Char) : List Char :=
  text.flatMap escapeChar

def escape (text : String) : String :=
  String.ofList (escapeChars text.toList)

/-- The character a `\u` escape names: a hexadecimal number, perhaps after a plus sign, that is
the code of a character. -/
def namedChar? (digits : List Char) : Option Char :=
  let unsigned := match digits with
    | '+' :: rest => rest
    | _ => digits
  if unsigned.isEmpty then
    none
  else
    (Text.hexNumberFrom? 0 unsigned).bind fun code =>
      if code.isValidChar then some (Char.ofNat code) else none

/-- The character a one-letter escape stands for. -/
def shortEscape? : Char → Option Char
  | '\\' => some '\\'
  | '"' => some '"'
  | 'n' => some '\n'
  | 'r' => some '\r'
  | 't' => some '\t'
  | '0' => some '\x00'
  | _ => none

/-- Reads escapes back. `\u` takes up to four characters with it; an escape without a meaning
stands for itself. -/
def unescapeChars : List Char → List Char
  | [] => []
  | '\\' :: 'u' :: after =>
    let digits := after.take 4
    ((namedChar? digits).map fun c => [c]).getD ('\\' :: 'u' :: digits)
      ++ unescapeChars (after.drop 4)
  | '\\' :: c :: rest =>
    ((shortEscape? c).map fun short => [short]).getD ['\\', c] ++ unescapeChars rest
  | c :: rest => c :: unescapeChars rest
termination_by text => text.length
decreasing_by all_goals simp only [List.length_cons, List.length_drop] <;> omega

def unescape (text : String) : String :=
  String.ofList (unescapeChars text.toList)

end TextTemplate.Code
