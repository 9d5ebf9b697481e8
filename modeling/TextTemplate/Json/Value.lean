import TextTemplate.Json.Number

/-!
Values of JSON. Members of a record keep their order and may repeat; a string that escapes half
of a surrogate pair is a value, but not a text.
-/

namespace TextTemplate

inductive Json where
  | null
  | bool (value : Bool)
  | number (literal : List Char)
  /-- A string; nothing for one that is not a text. -/
  | string (text? : Option String)
  | list (items : List Json)
  | record (members : List (Option String × Json))
  deriving Inhabited

namespace Json

def ofNat (value : Nat) : Json :=
  .number (Nat.toDigits 10 value)

def ofString (text : String) : Json :=
  .string (some text)

def ofFields (fields : List (String × Json)) : Json :=
  .record (fields.map fun field => (some field.1, field.2))

mutual

/-- Whether lists and records are nested at most `levels` deep. -/
def nestsWithin (levels : Nat) : Json → Bool
  | .list items => 0 < levels && itemsNestWithin (levels - 1) items
  | .record members => 0 < levels && membersNestWithin (levels - 1) members
  | .null => true
  | .bool _ => true
  | .number _ => true
  | .string _ => true

def itemsNestWithin (levels : Nat) : List Json → Bool
  | [] => true
  | item :: rest => item.nestsWithin levels && itemsNestWithin levels rest

def membersNestWithin (levels : Nat) : List (Option String × Json) → Bool
  | [] => true
  | member :: rest => member.2.nestsWithin levels && membersNestWithin levels rest

end

mutual

/-- Whether every string is a text and every number a finite double. -/
def isProper : Json → Bool
  | .null => true
  | .bool _ => true
  | .number literal => ((Decimal.ofLiteral? literal).map Decimal.isFinite).getD false
  | .string text? => text?.isSome
  | .list items => areProper items
  | .record members => areProperMembers members

def areProper : List Json → Bool
  | [] => true
  | item :: rest => item.isProper && areProper rest

def areProperMembers : List (Option String × Json) → Bool
  | [] => true
  | member :: rest => member.1.isSome && member.2.isProper && areProperMembers rest

end

end Json

end TextTemplate
