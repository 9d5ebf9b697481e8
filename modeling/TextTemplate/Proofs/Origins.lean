import Mathlib.Data.List.TakeWhile
import TextTemplate.Piece
import TextTemplate.Proofs.BuiltTemplates
import TextTemplate.Proofs.EscapedUnits

/-! What may be written for a range of a template: the range itself when it lies outside of the
text nodes, and the escaped range when it lies in them. Trimmed attribute values and the lines
of literal runs are such ranges. -/

namespace TextTemplate
open Text

def OriginKind.write : OriginKind → List Char → List Char
  | .code, original => original
  | .text, original => Code.escapeChars original

/-- The span covers `original`, and `written` stands for it. -/
structure Template.Yields (template : Template) (original : List Char) (span : Span) (kind : OriginKind)
    (written : List Char) : Prop where
  nonempty : original ≠ []
  covers : span.Covers template.text.toList original
  written : written = kind.write original
  kind : ∀ offset, span.contains offset = true → (template.IsTextAt offset ↔ kind = .text)

/-- Whatever origin a piece remembers, the template of that source yields its text. -/
def Bundle.Accounts (bundle : Bundle) (piece : Piece) : Prop :=
  ∀ origin ∈ piece.origin?, ∃ template original, bundle.find? origin.source = some template ∧
    template.Yields original origin.span origin.kind piece.text.toList

theorem Bundle.accounts_of_plain (bundle : Bundle) {piece : Piece} (plain : piece.origin? = none) :
    bundle.Accounts piece := by
  intro origin remembered
  rw [plain] at remembered
  cases remembered

theorem Bundle.accounts_mapped {bundle : Bundle} {text : String} {source : SourceId} {span : Span}
    {kind : OriginKind} {template : Template} (found : bundle.find? source = some template)
    (yields : text ≠ "" → ∃ original, template.Yields original span kind text.toList) :
    bundle.Accounts (.mapped text ⟨source, span, kind⟩) := by
  unfold Piece.mapped
  split
  next => exact accounts_of_plain bundle rfl
  next mapped =>
    intro origin same
    cases same
    simp only [Bool.or_eq_true, not_or, String.isEmpty_iff] at mapped
    obtain ⟨original, yielded⟩ := yields mapped.1
    exact ⟨template, original, found, yielded⟩

theorem Text.exists_trim (text : List Char) :
    ∃ trailing, text = text.takeWhile isBlank ++ (trim text ++ trailing) ∧ ∀ c ∈ trailing, isBlank c = true := by
  refine ⟨((trimStart text).reverse.takeWhile isBlank).reverse, ?_, ?_⟩
  · have ends : trim text ++ ((trimStart text).reverse.takeWhile isBlank).reverse = trimStart text := by
      rw [trim, trimEnd, ← List.reverse_append, List.takeWhile_append_dropWhile, List.reverse_reverse]
    rw [ends, trimStart, List.takeWhile_append_dropWhile]
  · intro c member
    exact List.mem_takeWhile_imp (List.mem_reverse.mp member)

theorem Span.Covers.contains_of_narrow {span : Span} {text first middle last : List Char}
    (covers : span.Covers text (first ++ (middle ++ last))) {offset : Nat}
    (within : (span.narrow (width first) (width first + width middle)).contains offset = true) :
    span.contains offset = true := by
  have stop := covers.stop_eq
  simp only [width_append] at stop
  rw [Span.contains_iff] at within ⊢
  simp only [Span.narrow] at within
  omega

theorem Attribute.trimmed?_covers {given : Attribute} {text : List Char}
    (covers : given.valueSpan.Covers text given.value.toList)
    {value : String × Span} (trimmed : given.trimmed? = some value) :
    value.1.toList ≠ [] ∧ value.2.Covers text value.1.toList ∧
      ∀ offset, value.2.contains offset = true → given.valueSpan.contains offset = true := by
  obtain ⟨trailing, split, -⟩ := exists_trim given.value.toList
  rw [split] at covers
  simp only [trimmed?] at trimmed
  split at trimmed
  next => cases trimmed
  next kept =>
    cases trimmed
    rw [String.toList_ofList]
    exact ⟨by simpa using kept, covers.narrow, fun _ => covers.contains_of_narrow⟩

theorem Directive.value?_eq_some {given : Directive} {name : String} {value : String × Span}
    (found : given.value? name = some value) :
    ∃ valued ∈ given.attributes, valued.trimmed? = some value := by
  obtain ⟨valued, attached, trimmed⟩ := Option.bind_eq_some_iff.mp found
  exact ⟨valued, List.mem_of_find?_eq_some attached, trimmed⟩

theorem Directive.value?_yields {template : Template} (faithful : template.Faithful) {given : Directive}
    (member : .directive given ∈ template.nodes) {name : String} {value : String × Span}
    (found : given.value? name = some value) :
    template.Yields value.1.toList value.2 .code value.1.toList := by
  obtain ⟨valued, listed, trimmed⟩ := Directive.value?_eq_some found
  have quoted : (valued.value, valued.valueSpan) ∈ (Node.directive given).quotes :=
    List.mem_cons_of_mem _ (List.mem_map_of_mem listed)
  have whole := faithful.covers _ member _ quoted
  obtain ⟨nonempty, covers, inside⟩ := Attribute.trimmed?_covers whole trimmed
  refine ⟨nonempty, covers, rfl, fun offset within => ?_⟩
  have outside := faithful.not_isTextAt member rfl quoted (inside offset within)
  exact iff_of_false outside OriginKind.noConfusion

theorem CodeFragment.code_yields {template : Template} (faithful : template.Faithful)
    {fragment : CodeFragment} (member : .code fragment ∈ template.nodes) (nonempty : fragment.code ≠ "") :
    template.Yields fragment.code.toList fragment.codeSpan .code fragment.code.toList := by
  have quoted : (fragment.code, fragment.codeSpan) ∈ (Node.code fragment).quotes := List.mem_singleton_self _
  have covers := faithful.covers _ member _ quoted
  refine ⟨?_, covers, rfl, fun offset within => ?_⟩
  · simpa using nonempty
  · exact iff_of_false (faithful.not_isTextAt member rfl quoted within) OriginKind.noConfusion

end TextTemplate
