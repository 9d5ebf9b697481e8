import TextTemplate.Bundle
import TextTemplate.Json.Reader

/-!
Bundles and options as they arrive in JSON. A structure is a record of its fields, in any order
and among unknown ones, or a list of its fields in order. A known field may not repeat, and
`null` is not a missing field. How deep a node may nest depends on how deep it stands in its
document; what stands outside of nodes may nest to any depth.
-/

namespace TextTemplate

namespace Exchange

/-- The only value of a member, if there is at most one of that name. -/
def lookup? (members : List (Option String × Json)) (name : String) : Option (Option Json) :=
  match members.filter fun member => member.1 = some name with
  | [] => some none
  | [member] => some (some member.2)
  | _ :: _ :: _ => none

/-- The fields of a structure, each present or not. Every member name must be a text. -/
def fields? (names : List String) : Json → Option (List (Option Json))
  | .record members =>
    if members.all fun member => member.1.isSome then names.mapM (lookup? members) else none
  | .list items =>
    if items.length ≤ names.length then
      some (items.map some ++ List.replicate (names.length - items.length) none)
    else
      none
  | _ => none

/-- An offset is written as a plain number below the bound of offsets. -/
def offset? : Json → Option Nat
  | .number literal =>
    ((Json.Decimal.ofLiteral? literal).bind Json.Decimal.natural?).filter (· < offsetBound)
  | _ => none

def text? : Json → Option String
  | .string value? => value?
  | _ => none

def listOf? {α : Type} (item? : Json → Option α) : Json → Option (List α)
  | .list items => items.mapM item?
  | _ => none

def optionalText? : Json → Option (Option String)
  | .null => some none
  | .string value? => value?.map some
  | _ => none

/-- The name of a plain alternative: a text, or a record of that one name whose value is
accepted as empty. -/
def alternative? (isUnit : Json → Bool) : Json → Option String
  | .string value? => value?
  | .record [member] => if isUnit member.2 then member.1 else none
  | _ => none

def isNull : Json → Bool
  | .null => true
  | _ => false

/-- What counts as empty inside a node: null or a record without members. -/
def isVoid : Json → Bool
  | .null => true
  | .record [] => true
  | _ => false

/-- The type of a node and its fields without the type. -/
def tagged? : Json → Option (String × Json)
  | .record members =>
    ((lookup? members "type").bind id).bind fun tag =>
      (text? tag).map fun name =>
        (name, .record (members.filter fun member => member.1 ≠ some "type"))
  | .list (tag :: fields) => (text? tag).map fun name => (name, .list fields)
  | _ => none

/-- How deep a document may nest, its nodes included. -/
def documentDepthLimit : Nat := 127

end Exchange

open Exchange

def Span.ofJson? (value : Json) : Option Span :=
  match fields? ["start", "end"] value with
  | some [some start, some stop] => do return ⟨← offset? start, ← offset? stop⟩
  | _ => none

def SourceId.ofJson? (value : Json) : Option SourceId :=
  (text? value).map SourceId.mk

def Attribute.ofJson? (value : Json) : Option Attribute :=
  match fields? ["name", "value", "value_span"] value with
  | some [some name, some content, some span] =>
    do return ⟨← text? name, ← text? content, ← Span.ofJson? span⟩
  | _ => none

def Directive.ofJson? (value : Json) : Option Directive :=
  match fields? ["name", "name_span", "attributes", "span"] value with
  | some [some name, some nameSpan, some attributes, some span] =>
    do return ⟨← text? name, ← Span.ofJson? nameSpan,
      ← listOf? Attribute.ofJson? attributes, ← Span.ofJson? span⟩
  | _ => none

def LiteralText.ofJson? (value : Json) : Option LiteralText :=
  match fields? ["content", "span"] value with
  | some [some content, some span] => do return ⟨← text? content, ← Span.ofJson? span⟩
  | _ => none

def CodeKind.ofName? : String → Option CodeKind
  | "statement" => some .statement
  | "expression" => some .expression
  | "feature" => some .feature
  | _ => none

def CodeFragment.ofJson? (value : Json) : Option CodeFragment :=
  match fields? ["kind", "code", "code_span", "span"] value with
  | some [some kind, some code, some codeSpan, some span] =>
    do return ⟨← (alternative? isVoid kind).bind CodeKind.ofName?, ← text? code,
      ← Span.ofJson? codeSpan, ← Span.ofJson? span⟩
  | _ => none

def Inclusion.ofJson? (value : Json) : Option Inclusion :=
  match fields? ["file", "file_span", "span"] value with
  | some [some file, some fileSpan, some span] =>
    do return ⟨← text? file, ← Span.ofJson? fileSpan, ← Span.ofJson? span⟩
  | _ => none

/-- The node of a type with the given fields. -/
def Node.ofTagged? (tag : String) (fields : Json) : Option Node :=
  match tag with
  | "directive" => (Directive.ofJson? fields).map .directive
  | "text" => (LiteralText.ofJson? fields).map .text
  | "code" => (CodeFragment.ofJson? fields).map .code
  | "include" => (Inclusion.ofJson? fields).map .inclusion
  | _ => none

/-- A node. Since its type may stand behind its other fields, all of it has to be proper, the
unknown fields included, and it must not nest deeper than `levels`. -/
def Node.ofJson? (levels : Nat) (value : Json) : Option Node :=
  if value.nestsWithin levels && value.isProper then
    (tagged? value).bind fun parts => Node.ofTagged? parts.1 parts.2
  else
    none

/-- A template, at a place of its document that leaves `levels` to nest: two of them are the
template itself and the list of its nodes. -/
def Template.ofJson? (levels : Nat) (value : Json) : Option Template :=
  match fields? ["source", "text", "nodes"] value with
  | some [some source, some text, some nodes] =>
    do return ⟨← SourceId.ofJson? source, ← text? text, ← listOf? (Node.ofJson? (levels - 2)) nodes⟩
  | _ => none

/-- Macro values by name; of two values for one name the later counts. -/
def Macros.ofJson? : Json → Option Macros
  | .record members =>
    (members.mapM fun (member : Option String × Json) =>
      do return (← member.1, ← text? member.2)).map Macros.ofList
  | _ => none

def Bundle.ofJson? (value : Json) : Option Bundle :=
  match fields? ["root", "templates", "macros"] value with
  | some [some root, some templates, macros?] =>
    do return { root := ← SourceId.ofJson? root
                templates := ← listOf? (Template.ofJson? (documentDepthLimit - 2)) templates
                macros := ← (macros?.map Macros.ofJson?).getD (some .empty) }
  | _ => none

def Bundle.parse (text : String) : Except GenerationError Bundle :=
  match (Json.read? text).bind Bundle.ofJson? with
  | some bundle => .ok bundle
  | none => .error .malformed

def Variant.ofName? : String → Option Variant
  | "code_behind" => some .codeBehind
  | "executable" => some .executable
  | "interactive" => some .interactive
  | _ => none

def Variant.ofJson? (value : Json) : Option Variant :=
  (alternative? isNull value).bind Variant.ofName?

/-- Options; every missing field has its default. -/
def Options.ofJson? (value : Json) : Option Options :=
  match fields? ["variant", "namespace", "class_name", "macros"] value with
  | some [variant?, namespace?, className?, macros?] =>
    do return { variant := ← (variant?.map Variant.ofJson?).getD (some .codeBehind)
                givenNamespace? := ← (namespace?.map optionalText?).getD (some none)
                givenClassName? := ← (className?.map optionalText?).getD (some none)
                macros := ← (macros?.map Macros.ofJson?).getD (some .empty) }
  | _ => none

def Options.parse? (text : String) : Option Options :=
  (Json.read? text).bind Options.ofJson?

end TextTemplate
