import TextTemplate.Json.Token

/-!
Writing JSON, without blanks. Strings escape what must be escaped and nothing else.
-/

namespace TextTemplate.Json

def hexChar (digit : Nat) : Char :=
  if digit < 10 then Char.ofNat ('0'.toNat + digit) else Char.ofNat ('a'.toNat + digit - 10)

def quoteChar (c : Char) : List Char :=
  match c with
  | '"' => ['\\', '"']
  | '\\' => ['\\', '\\']
  | '\x08' => ['\\', 'b']
  | '\x0c' => ['\\', 'f']
  | '\n' => ['\\', 'n']
  | '\r' => ['\\', 'r']
  | '\t' => ['\\', 't']
  | _ =>
    if c.toNat < 0x20 then
      ['\\', 'u', '0', '0', hexChar (c.toNat / 16), hexChar (c.toNat % 16)]
    else
      [c]

/-- A string; one that is not a text is written as half of a surrogate pair. -/
def quote : Option String → List Char
  | some text => '"' :: text.toList.flatMap quoteChar ++ ['"']
  | none => ['"', '\\', 'u', 'd', '8', '0', '0', '"']

mutual

def write : Json → List Char
  | .null => ['n', 'u', 'l', 'l']
  | .bool true => ['t', 'r', 'u', 'e']
  | .bool false => ['f', 'a', 'l', 's', 'e']
  | .number literal => literal
  | .string text? => quote text?
  | .list [] => ['[', ']']
  | .list (item :: rest) => '[' :: item.write ++ writeItems rest ++ [']']
  | .record [] => ['\x7b', '\x7d']
  | .record (member :: rest) =>
    '\x7b' :: quote member.1 ++ ':' :: member.2.write ++ writeMembers rest ++ ['\x7d']

def writeItems : List Json → List Char
  | [] => []
  | item :: rest => ',' :: item.write ++ writeItems rest

def writeMembers : List (Option String × Json) → List Char
  | [] => []
  | member :: rest => ',' :: quote member.1 ++ ':' :: member.2.write ++ writeMembers rest

end

def render (value : Json) : String :=
  String.ofList value.write

end TextTemplate.Json
