import TextTemplate.Json.Token

/-!
Reading JSON. The reader takes token after token and keeps the open lists and records on a
stack, so that a document may nest to any depth.
-/

namespace TextTemplate.Json

/-- The place a value is read for: an item of a list or a member of a record, with what was
read before it, latest first. -/
inductive Hole where
  | item (before : List Json)
  | member (before : List (Option String × Json)) (key : Option String)
  deriving Inhabited

/-- What is expected next, inside the holes that are open, innermost first. -/
inductive Reading where
  | value (holes : List Hole)
  | listStart (holes : List Hole)
  | recordStart (holes : List Hole)
  | key (holes : List Hole) (before : List (Option String × Json))
  | colon (holes : List Hole) (before : List (Option String × Json)) (key : Option String)
  /-- A value is complete, and the innermost hole decides what may follow it. -/
  | filled (holes : List Hole) (value : Json)
  deriving Inhabited

namespace Reading

def beginValue (holes : List Hole) : Token → Option Reading
  | .bare literal => some (.filled holes literal)
  | .string text? => some (.filled holes (.string text?))
  | .openList => some (.listStart holes)
  | .openRecord => some (.recordStart holes)
  | .closeList => none
  | .closeRecord => none
  | .comma => none
  | .colon => none

def afterValue (last : Json) : List Hole → Token → Option Reading
  | .item before :: outer, .comma => some (.value (.item (last :: before) :: outer))
  | .item before :: outer, .closeList => some (.filled outer (.list (last :: before).reverse))
  | .member before name :: outer, .comma => some (.key outer ((name, last) :: before))
  | .member before name :: outer, .closeRecord =>
    some (.filled outer (.record ((name, last) :: before).reverse))
  | _, _ => none

def step : Reading → Token → Option Reading
  | .value holes, token => beginValue holes token
  | .listStart holes, .closeList => some (.filled holes (.list []))
  | .listStart holes, token => beginValue (.item [] :: holes) token
  | .recordStart holes, .closeRecord => some (.filled holes (.record []))
  | .recordStart holes, .string name => some (.colon holes [] name)
  | .key holes before, .string name => some (.colon holes before name)
  | .colon holes before name, .colon => some (.value (.member before name :: holes))
  | .filled holes last, token => afterValue last holes token
  | _, _ => none

def finish? : Reading → Option Json
  | .filled [] document => some document
  | _ => none

end Reading

def ofTokens? (tokens : List Token) : Option Json :=
  (tokens.foldlM Reading.step (.value [])).bind Reading.finish?

/-- The value of a JSON text; nothing when the text is not JSON. -/
def read? (text : String) : Option Json :=
  (tokens? text.toList).bind ofTokens?

end TextTemplate.Json
