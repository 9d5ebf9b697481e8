import TextTemplate.Exchange.Reading
import TextTemplate.Exchange.Writing
import TextTemplate.Proofs.JsonRoundTrip
import TextTemplate.Proofs.Slices

/-! Bundles and options are read back from the JSON they are written in. A record is read field by field,
whatever the names are as long as they differ; a node is read in spite of its type standing among its
fields, because all of it is proper and shallow; and macro values keep their order. -/

namespace TextTemplate

/-! Numbers, lists and records -/

namespace Json

private theorem head_toDigits {number : Nat} (positive : 0 < number) : (Nat.toDigits 10 number).head? ≠ some '0' := by
  induction number using Nat.strongRecOn with
  | ind number ih =>
    by_cases single : number < 10
    · rw [Nat.toDigits_of_lt_base single, List.head?_cons]
      intro zero
      have digit : ∀ figure < 10, Nat.digitChar figure = '0' → figure = 0 := by decide
      have := digit number single (Option.some.inj zero)
      omega
    · have begins := ih (number / 10) (by omega) (by omega)
      rw [Nat.toDigits_of_base_le (by decide) (by omega)]
      cases shape : Nat.toDigits 10 (number / 10) with
      | nil => exact absurd shape Nat.toDigits_ne_nil
      | cons first more =>
        rw [shape] at begins
        exact begins

theorem ofLiteral?_toDigits (number : Nat) :
    Decimal.ofLiteral? (Nat.toDigits 10 number) =
      some ⟨false, Nat.toDigits 10 number, [], none, true⟩ := by
  have figures : ∀ c ∈ Nat.toDigits 10 number, c.isDigit = true :=
    fun c member => Nat.isDigit_of_mem_toDigits (by decide) (by decide) member
  have unsigned : (Nat.toDigits 10 number).head? ≠ some '-' := by
    intro first
    have := figures '-' (List.mem_of_mem_head? first)
    cases this
  have whole : Decimal.digits? (Nat.toDigits 10 number) = some (Nat.toDigits 10 number, []) := by
    have kept : (Nat.toDigits 10 number ++ []).takeWhile Char.isDigit = Nat.toDigits 10 number ++ [] :=
      List.takeWhile_append_of_pos figures
    have dropped : (Nat.toDigits 10 number ++ []).dropWhile Char.isDigit = [] :=
      List.dropWhile_append_of_pos figures
    rw [List.append_nil] at kept dropped
    have nonempty : (Nat.toDigits 10 number).isEmpty = false :=
      Bool.eq_false_iff.mpr fun empty => Nat.toDigits_ne_nil (List.isEmpty_iff.mp empty)
    simp only [Decimal.digits?, kept, dropped, nonempty, Bool.false_eq_true, if_false]
  have led : ¬((Nat.toDigits 10 number).head? = some '0' ∧ (Nat.toDigits 10 number).length > 1) := by
    rintro ⟨zero, long⟩
    cases Nat.eq_zero_or_pos number with
    | inl same =>
      subst same
      exact absurd long (by decide)
    | inr positive => exact head_toDigits positive zero
  unfold Decimal.ofLiteral?
  split
  next rest shape =>
    rw [shape] at unsigned
    exact absurd rfl unsigned
  next =>
    simp only [whole, Option.bind_some, if_neg led, Decimal.fraction?, Decimal.exponentOf?, Option.map_some, unsigned,
      decide_false, List.isEmpty_nil]

private theorem absorb_digits {digits : List Char} {number : Nat}
    (small : Nat.ofDigitChars 10 digits number < Nat.pow 2 64) :
    Decimal.absorb number digits = (Nat.ofDigitChars 10 digits number, []) := by
  induction digits generalizing number with
  | nil => rfl
  | cons digit rest ih =>
    rw [Nat.ofDigitChars_cons, Nat.mul_comm] at small ⊢
    have grows : number * 10 + (digit.toNat - '0'.toNat) ≤
        Nat.ofDigitChars 10 rest (number * 10 + (digit.toNat - '0'.toNat)) := by
      rw [Nat.ofDigitChars_eq_ofDigitChars_zero]
      exact Nat.le_add_right_of_le (Nat.le_mul_of_pos_left _ (Nat.pow_pos (by decide)))
    simp only [Decimal.absorb]
    rw [if_pos (Nat.lt_of_le_of_lt grows small), ih small]

private theorem nearestDouble_le (number : Nat) :
    Decimal.nearestDouble number ≤ number + Nat.pow 2 (number.log2 - 52) := by
  have below := Nat.div_mul_le_self number (Nat.pow 2 (number.log2 - 52))
  unfold Decimal.nearestDouble
  dsimp only
  split
  · rw [Nat.add_one_mul]
    exact Nat.add_le_add_right below _
  · exact Nat.le_add_right_of_le below

private theorem ofNat_isProper {offset : Nat} (small : offset < offsetBound) : (ofNat offset).isProper = true := by
  have value : Nat.ofDigitChars 10 (Nat.toDigits 10 offset) 0 = offset := Nat.ofDigitChars_ten_toDigits
  have absorbed : Decimal.absorb 0 (Nat.toDigits 10 offset) = (offset, []) := by
    rw [absorb_digits (value.symm ▸ small), value]
  have unit : Nat.pow 2 (offset.log2 - 52) ≤ Nat.pow 2 11 := by
    refine Nat.pow_le_pow_right (by decide) ?_
    by_cases zero : offset = 0
    · subst zero
      decide
    · have : offset.log2 < 64 := (Nat.log2_lt zero).mpr small
      omega
  have near : Decimal.nearestDouble offset * Decimal.nearestDouble (Nat.pow 10 0) < Decimal.doubleLimit := by
    have one : Decimal.nearestDouble (Nat.pow 10 0) = 1 := by decide
    have bounded := nearestDouble_le offset
    have limit : offsetBound + Nat.pow 2 11 < Decimal.doubleLimit := by decide +kernel
    rw [one, Nat.mul_one]
    omega
  have parts : Decimal.scientific ⟨false, Nat.toDigits 10 offset, [], none, true⟩ = (offset, 0) := by
    simp only [Decimal.scientific, absorbed, Decimal.absorb, Decimal.exponent, List.length_nil]
    rfl
  rw [ofNat, isProper, ofLiteral?_toDigits, Option.map_some, Option.getD_some, Decimal.isFinite, parts]
  exact Bool.or_eq_true_iff.mpr (.inr (Bool.and_eq_true_iff.mpr ⟨rfl, decide_eq_true near⟩))

theorem areProper_iff {items : List Json} : areProper items = true ↔ ∀ item ∈ items, item.isProper = true := by
  induction items with
  | nil => simp [areProper]
  | cons item rest ih => simp [areProper, ih]

private theorem itemsNestWithin_iff {levels : Nat} {items : List Json} :
    itemsNestWithin levels items = true ↔ ∀ item ∈ items, item.nestsWithin levels = true := by
  induction items with
  | nil => simp [itemsNestWithin]
  | cons item rest ih => simp [itemsNestWithin, ih]

theorem ofFields_isProper {fields : List (String × Json)} :
    (ofFields fields).isProper = true ↔ ∀ field ∈ fields, field.2.isProper = true := by
  rw [ofFields, isProper]
  induction fields with
  | nil => simp [areProperMembers]
  | cons field rest ih => simp [areProperMembers, ih]

private theorem ofFields_nestsWithin {levels : Nat} {fields : List (String × Json)} :
    (ofFields fields).nestsWithin (levels + 1) = true ↔ ∀ field ∈ fields, field.2.nestsWithin levels = true := by
  have members : membersNestWithin levels (fields.map fun field => (some field.1, field.2)) = true ↔
      ∀ field ∈ fields, field.2.nestsWithin levels = true := by
    induction fields with
    | nil => simp [membersNestWithin]
    | cons field rest ih => simp [membersNestWithin, ih]
  simpa [ofFields, nestsWithin] using members

end Json

namespace Exchange

private theorem offset?_ofNat {offset : Nat} (small : offset < offsetBound) :
    offset? (.ofNat offset) = some offset := by
  simp [offset?, Json.ofNat, Json.ofLiteral?_toDigits, Json.Decimal.natural?, Nat.ofDigitChars_ten_toDigits, small]

theorem listOf?_map {α : Type} {item? : Json → Option α} {toJson : α → Json} {items : List α}
    (each : ∀ item ∈ items, item? (toJson item) = some item) :
    listOf? item? (.list (items.map toJson)) = some items := by
  show (items.map toJson).mapM item? = some items
  induction items with
  | nil => rfl
  | cons item rest ih =>
    obtain ⟨first, later⟩ := List.forall_mem_cons.mp each
    rw [List.map_cons, List.mapM_cons, first, ih later]
    rfl

private theorem lookup?_ofFields {fields : List (String × Json)} (distinct : (fields.map Prod.fst).Nodup)
    {field : String × Json} (member : field ∈ fields) :
    lookup? (fields.map fun field => (some field.1, field.2)) field.1 = some (some field.2) := by
  have only : (fields.map fun field => (some field.1, field.2)).filter
      (fun member : Option String × Json => member.1 = some field.1) = [(some field.1, field.2)] := by
    induction fields with
    | nil => cases member
    | cons first rest ih =>
      obtain ⟨new, others⟩ := List.nodup_cons.mp distinct
      rcases List.mem_cons.mp member with rfl | later
      · have absent : rest.filter (fun other => other.1 = field.1) = [] := by
          refine List.filter_eq_nil_iff.mpr fun other inside same => new ?_
          exact List.mem_map.mpr ⟨other, inside, of_decide_eq_true same⟩
        simpa [List.filter_map, Function.comp_def] using absent
      · have apart : first.1 ≠ field.1 := fun same => new (List.mem_map.mpr ⟨field, later, same.symm⟩)
        have tail := ih others later
        simpa [apart] using tail
  rw [lookup?, only]

theorem fields?_ofFields (fields : List (String × Json)) (distinct : (fields.map Prod.fst).Nodup) :
    fields? (fields.map Prod.fst) (.ofFields fields) = some (fields.map fun field => some field.2) := by
  have named : (fields.map fun field => (some field.1, field.2)).all
      (fun member : Option String × Json => member.1.isSome) = true := by
    simp
  have each (part : List (String × Json)) (inside : part ⊆ fields) :
      (part.map Prod.fst).mapM (lookup? (fields.map fun field => (some field.1, field.2))) =
        some (part.map fun field => some field.2) := by
    induction part with
    | nil => rfl
    | cons field rest ih =>
      obtain ⟨first, later⟩ := List.cons_subset.mp inside
      rw [List.map_cons, List.mapM_cons, lookup?_ofFields distinct first, ih later]
      rfl
  rw [Json.ofFields, fields?, if_pos named]
  exact each fields (List.Subset.refl _)

/-- The type of a node is told apart from its fields. -/
theorem tagged?_ofFields (tag : String) {fields : List (String × Json)} (apart : "type" ∉ fields.map Prod.fst) :
    tagged? (.ofFields (("type", .ofString tag) :: fields)) = some (tag, .ofFields fields) := by
  have others : ∀ field ∈ fields, field.1 ≠ "type" := fun field member same =>
    apart (List.mem_map.mpr ⟨field, member, same⟩)
  have none : fields.filter (fun field => field.1 = "type") = [] :=
    List.filter_eq_nil_iff.mpr fun field member same => others field member (of_decide_eq_true same)
  have all : fields.filter (fun field => !decide (field.1 = "type")) = fields :=
    List.filter_eq_self.mpr fun field member => by simp [others field member]
  simp [tagged?, lookup?, Json.ofFields, List.filter_map, Function.comp_def, none, all, text?, Json.ofString]

end Exchange

open Exchange

/-! Templates -/

def Node.spans : Node → List Span
  | .directive given => given.nameSpan :: given.span :: given.attributes.map Attribute.valueSpan
  | .text literal => [literal.span]
  | .code fragment => [fragment.codeSpan, fragment.span]
  | .inclusion reference => [reference.fileSpan, reference.span]

instance (span : Span) : Decidable span.IsWord :=
  decidable_of_iff (span.start < offsetBound ∧ span.stop < offsetBound)
    ⟨fun below => ⟨below.1, below.2⟩, fun word => ⟨word.start, word.stop⟩⟩

/-- Both ends of all spans are offsets, whatever they are in the text. -/
def Bundle.SpansFit (bundle : Bundle) : Prop :=
  ∀ template ∈ bundle.templates, ∀ node ∈ template.nodes, ∀ span ∈ node.spans, span.IsWord

instance (bundle : Bundle) : Decidable bundle.SpansFit :=
  inferInstanceAs (Decidable (∀ template ∈ bundle.templates, ∀ node ∈ template.nodes, ∀ span ∈ node.spans,
    span.IsWord))

/-- A value that may stand in a node that is read. -/
structure Json.Buffers (levels : Nat) (value : Json) : Prop where
  proper : value.isProper = true
  shallow : value.nestsWithin levels = true

namespace Json.Buffers
variable {levels : Nat}

theorem ofString (text : String) : Buffers levels (.ofString text) :=
  ⟨rfl, rfl⟩

theorem ofFields {fields : List (String × Json)} (each : ∀ field ∈ fields, Buffers levels field.2) :
    Buffers (levels + 1) (.ofFields fields) :=
  ⟨ofFields_isProper.mpr fun field member => (each field member).proper,
    ofFields_nestsWithin.mpr fun field member => (each field member).shallow⟩

private theorem list {items : List Json} (each : ∀ item ∈ items, Buffers levels item) :
    Buffers (levels + 1) (.list items) := by
  refine ⟨areProper_iff.mpr fun item member => (each item member).proper, ?_⟩
  simpa [nestsWithin] using itemsNestWithin_iff.mpr fun item member => (each item member).shallow

theorem span {span : Span} (word : span.IsWord) : Buffers (levels + 1) span.toJson := by
  apply ofFields
  intro field member
  rcases List.mem_cons.mp member with rfl | member
  · exact ⟨ofNat_isProper word.start, rfl⟩
  rcases List.mem_cons.mp member with rfl | member
  · exact ⟨ofNat_isProper word.stop, rfl⟩
  · cases member

end Json.Buffers

section
variable {span : Span} {given : Attribute} {node : Node} {levels : Nat}

theorem Span.ofJson?_toJson (word : span.IsWord) : Span.ofJson? span.toJson = some span := by
  have read : fields? ["start", "end"] span.toJson = some [some (.ofNat span.start), some (.ofNat span.stop)] :=
    fields?_ofFields [("start", .ofNat span.start), ("end", .ofNat span.stop)] (by simp)
  simp only [ofJson?, read, offset?_ofNat word.start, offset?_ofNat word.stop]
  rfl

private theorem Attribute.ofJson?_toJson (word : given.valueSpan.IsWord) :
    Attribute.ofJson? given.toJson = some given := by
  have read := fields?_ofFields [("name", .ofString given.name), ("value", .ofString given.value),
    ("value_span", given.valueSpan.toJson)] (by simp)
  simp only [List.map_cons, List.map_nil] at read
  simp only [ofJson?, toJson, read, Span.ofJson?_toJson word]
  rfl

private theorem Attribute.toJson_buffers (word : given.valueSpan.IsWord) : Json.Buffers (levels + 2) given.toJson := by
  apply Json.Buffers.ofFields
  simp only [List.forall_mem_cons]
  exact ⟨.ofString _, .ofString _, .span word, List.forall_mem_nil _⟩

theorem Node.toJson_buffers (words : ∀ span ∈ node.spans, span.IsWord) :
    Json.Buffers (levels + 4) node.toJson := by
  cases node with
  | directive given =>
    simp only [spans, List.forall_mem_cons, List.forall_mem_map] at words
    obtain ⟨named, whole, valued⟩ := words
    have attributes : Json.Buffers (levels + 3) (.list (given.attributes.map Attribute.toJson)) := by
      apply Json.Buffers.list
      intro item member
      obtain ⟨attached, listed, rfl⟩ := List.mem_map.mp member
      exact Attribute.toJson_buffers (valued attached listed)
    apply Json.Buffers.ofFields
    simp only [List.forall_mem_cons]
    exact ⟨.ofString _, .ofString _, .span named, attributes, .span whole, List.forall_mem_nil _⟩
  | text literal =>
    simp only [spans, List.forall_mem_cons] at words
    apply Json.Buffers.ofFields
    simp only [List.forall_mem_cons]
    exact ⟨.ofString _, .ofString _, .span words.1, List.forall_mem_nil _⟩
  | code fragment =>
    simp only [spans, List.forall_mem_cons] at words
    apply Json.Buffers.ofFields
    simp only [List.forall_mem_cons]
    exact ⟨.ofString _, .ofString _, .ofString _, .span words.1, .span words.2.1, List.forall_mem_nil _⟩
  | inclusion reference =>
    simp only [spans, List.forall_mem_cons] at words
    apply Json.Buffers.ofFields
    simp only [List.forall_mem_cons]
    exact ⟨.ofString _, .ofString _, .span words.1, .span words.2.1, List.forall_mem_nil _⟩

private theorem Node.ofJson?_toJson (words : ∀ span ∈ node.spans, span.IsWord) :
    Node.ofJson? (levels + 4) node.toJson = some node := by
  have buffers : Json.Buffers (levels + 4) node.toJson := node.toJson_buffers words
  rw [ofJson?, if_pos (by rw [buffers.proper, buffers.shallow]; rfl)]
  cases node with
  | directive given =>
    simp only [spans, List.forall_mem_cons, List.forall_mem_map] at words
    obtain ⟨named, whole, valued⟩ := words
    have attributes : listOf? Attribute.ofJson? (.list (given.attributes.map Attribute.toJson)) =
        some given.attributes :=
      listOf?_map fun attached listed => Attribute.ofJson?_toJson (valued attached listed)
    have read := fields?_ofFields [("name", .ofString given.name), ("name_span", given.nameSpan.toJson),
      ("attributes", .list (given.attributes.map Attribute.toJson)), ("span", given.span.toJson)] (by simp)
    simp only [List.map_cons, List.map_nil] at read
    rw [toJson, tagged?_ofFields "directive" (by simp), Option.bind_some]
    simp only [ofTagged?, Directive.ofJson?, read, Span.ofJson?_toJson named, Span.ofJson?_toJson whole, attributes]
    rfl
  | text literal =>
    simp only [spans, List.forall_mem_cons] at words
    have read := fields?_ofFields [("content", .ofString literal.content), ("span", literal.span.toJson)] (by simp)
    simp only [List.map_cons, List.map_nil] at read
    rw [toJson, tagged?_ofFields "text" (by simp), Option.bind_some]
    simp only [ofTagged?, LiteralText.ofJson?, read, Span.ofJson?_toJson words.1]
    rfl
  | code fragment =>
    simp only [spans, List.forall_mem_cons] at words
    have read := fields?_ofFields [("kind", .ofString fragment.kind.name), ("code", .ofString fragment.code),
      ("code_span", fragment.codeSpan.toJson), ("span", fragment.span.toJson)] (by simp)
    have kind : (alternative? isVoid (.ofString fragment.kind.name)).bind CodeKind.ofName? = some fragment.kind := by
      cases fragment.kind <;> rfl
    simp only [List.map_cons, List.map_nil] at read
    rw [toJson, tagged?_ofFields "code" (by simp), Option.bind_some]
    simp only [ofTagged?, CodeFragment.ofJson?, read, kind, Span.ofJson?_toJson words.1,
      Span.ofJson?_toJson words.2.1]
    rfl
  | inclusion reference =>
    simp only [spans, List.forall_mem_cons] at words
    have read := fields?_ofFields [("file", .ofString reference.file), ("file_span", reference.fileSpan.toJson),
      ("span", reference.span.toJson)] (by simp)
    simp only [List.map_cons, List.map_nil] at read
    rw [toJson, tagged?_ofFields "include" (by simp), Option.bind_some]
    simp only [ofTagged?, Inclusion.ofJson?, read, Span.ofJson?_toJson words.1, Span.ofJson?_toJson words.2.1]
    rfl

private theorem Template.ofJson?_toJson {template : Template}
    (words : ∀ node ∈ template.nodes, ∀ span ∈ node.spans, span.IsWord) :
    Template.ofJson? (levels + 6) template.toJson = some template := by
  have nodes : listOf? (Node.ofJson? (levels + 4)) (.list (template.nodes.map Node.toJson)) = some template.nodes :=
    listOf?_map fun node member => Node.ofJson?_toJson (words node member)
  have read := fields?_ofFields [("source", template.source.toJson), ("text", .ofString template.text),
    ("nodes", .list (template.nodes.map Node.toJson))] (by simp)
  simp only [List.map_cons, List.map_nil] at read
  have below : levels + 6 - 2 = levels + 4 := rfl
  simp only [ofJson?, toJson, read, below, nodes]
  rfl

end

/-! Macro values -/

namespace Macros

private theorem insertEntry_last {name value : String} {entries : List (String × String)}
    (above : ∀ entry ∈ entries, entry.1 < name) : insertEntry name value entries = entries ++ [(name, value)] := by
  induction entries with
  | nil => rfl
  | cons entry rest ih =>
    obtain ⟨first, later⟩ := List.forall_mem_cons.mp above
    have different : name ≠ entry.1 := fun same => String.lt_irrefl _ (same ▸ first)
    have behind : ¬name < entry.1 := fun before => String.lt_irrefl _ (String.lt_trans before first)
    rw [insertEntry, if_neg behind, if_neg different, ih later]
    rfl

private theorem ofList_entries (macros : Macros) : ofList macros.entries = macros := by
  have grown (later : List (String × String)) (known : Macros)
      (sorted : (known.entries ++ later).Pairwise fun first second => first.1 < second.1) :
      (later.foldl (fun macros pair => macros.insert pair.1 pair.2) known).entries = known.entries ++ later := by
    induction later generalizing known with
    | nil => simp
    | cons entry rest ih =>
      have last : (known.insert entry.1 entry.2).entries = known.entries ++ [entry] :=
        insertEntry_last fun before member =>
          (List.pairwise_append.mp sorted).2.2 before member entry List.mem_cons_self
      rw [List.foldl_cons, ih _ (by rw [last, List.append_assoc]; exact sorted), last, List.append_assoc]
      rfl
  have same : (ofList macros.entries).entries = macros.entries := grown macros.entries empty macros.sorted
  generalize ofList macros.entries = read at same
  cases read
  cases macros
  cases same
  rfl

theorem ofJson?_toJson (macros : Macros) : Macros.ofJson? macros.toJson = some macros := by
  have pairs (entries : List (String × String)) :
      (entries.map fun entry => (some entry.1, Json.ofString entry.2)).mapM
        (fun member : Option String × Json => do return (← member.1, ← text? member.2)) = some entries := by
    induction entries with
    | nil => rfl
    | cons entry rest ih =>
      rw [List.map_cons, List.mapM_cons, ih]
      rfl
  rw [toJson, Json.ofFields, List.map_map, ofJson?]
  refine (congrArg (Option.map ofList) (pairs macros.entries)).trans ?_
  rw [Option.map_some, ofList_entries]

theorem toJson_isProper (macros : Macros) : macros.toJson.isProper = true := by
  apply Json.ofFields_isProper.mpr
  intro field member
  obtain ⟨entry, -, rfl⟩ := List.mem_map.mp member
  rfl

end Macros

private theorem Template.toJson_isProper {template : Template}
    (words : ∀ node ∈ template.nodes, ∀ span ∈ node.spans, span.IsWord) : template.toJson.isProper = true := by
  have nodes : (Json.list (template.nodes.map Node.toJson)).isProper = true := by
    apply Json.areProper_iff.mpr
    intro item member
    obtain ⟨node, listed, rfl⟩ := List.mem_map.mp member
    have buffers : Json.Buffers 4 node.toJson := node.toJson_buffers (words node listed)
    exact buffers.proper
  apply Json.ofFields_isProper.mpr
  simp only [List.forall_mem_cons]
  exact ⟨rfl, rfl, nodes, List.forall_mem_nil _⟩

namespace Bundle
variable {bundle : Bundle}

private theorem ofJson?_toJson (fit : bundle.SpansFit) : Bundle.ofJson? bundle.toJson = some bundle := by
  have templates : listOf? (Template.ofJson? (documentDepthLimit - 2))
      (.list (bundle.templates.map Template.toJson)) = some bundle.templates :=
    listOf?_map fun template member => Template.ofJson?_toJson (fit template member)
  have read := fields?_ofFields [("root", bundle.root.toJson),
    ("templates", .list (bundle.templates.map Template.toJson)), ("macros", bundle.macros.toJson)] (by simp)
  simp only [List.map_cons, List.map_nil] at read
  simp only [ofJson?, toJson, read, templates, Option.map_some, Macros.ofJson?_toJson]
  rfl

private theorem toJson_isProper (fit : bundle.SpansFit) : bundle.toJson.isProper = true := by
  have templates : (Json.list (bundle.templates.map Template.toJson)).isProper = true := by
    apply Json.areProper_iff.mpr
    intro item member
    obtain ⟨template, listed, rfl⟩ := List.mem_map.mp member
    exact template.toJson_isProper (fit template listed)
  apply Json.ofFields_isProper.mpr
  simp only [List.forall_mem_cons]
  exact ⟨rfl, templates, bundle.macros.toJson_isProper, List.forall_mem_nil _⟩

end Bundle

namespace Options

private theorem ofJson?_toJson (options : Options) : Options.ofJson? options.toJson = some options := by
  have variant : Variant.ofJson? (.ofString options.variant.name) = some options.variant := by
    cases options.variant <;> rfl
  have optional (text? : Option String) : optionalText? (optionalJson text?) = some text? := by
    cases text? <;> rfl
  have read := fields?_ofFields [("variant", .ofString options.variant.name),
    ("namespace", optionalJson options.givenNamespace?), ("class_name", optionalJson options.givenClassName?),
    ("macros", options.macros.toJson)] (by simp)
  simp only [List.map_cons, List.map_nil] at read
  simp only [ofJson?, toJson, read, Option.map_some, Option.getD_some, variant, optional, Macros.ofJson?_toJson]
  rfl

private theorem toJson_isProper (options : Options) : options.toJson.isProper = true := by
  have optional (text? : Option String) : (optionalJson text?).isProper = true := by
    cases text? <;> rfl
  apply Json.ofFields_isProper.mpr
  simp only [List.forall_mem_cons]
  exact ⟨rfl, optional _, optional _, options.macros.toJson_isProper, List.forall_mem_nil _⟩

end Options

/-- Every bundle whose spans are pairs of offsets is read back from its JSON text, and so are all options. -/
theorem Exchange.parse_render :
    (∀ bundle : Bundle, bundle.SpansFit → Bundle.parse bundle.toJson.render = .ok bundle) ∧
    ∀ options : Options, Options.parse? options.toJson.render = some options := by
  constructor
  · intro bundle fit
    have read : (Json.read? bundle.toJson.render).bind Bundle.ofJson? = some bundle := by
      rw [Json.read?_render (bundle.toJson_isProper fit), Option.bind_some, bundle.ofJson?_toJson fit]
    rw [Bundle.parse, read]
  · intro options
    rw [Options.parse?, Json.read?_render options.toJson_isProper, Option.bind_some, options.ofJson?_toJson]

/-- A bundle with all kinds of nodes, strings that have to be escaped, and spans at their limits. -/
def motleyBundle : Bundle where
  root := ⟨"a\\b.tt"⟩
  templates :=
    [{ source := ⟨"a\\b.tt"⟩
       text := "\"/\x01\r\n\u2028😀"
       nodes :=
        [.directive ⟨"import", ⟨3, 1⟩, [⟨"namespace", " System\t", ⟨offsetBound - 1, 0⟩⟩, ⟨"", "", ⟨0, 0⟩⟩], ⟨0, 90⟩⟩,
         .text ⟨"\x08\x0c\x7f", ⟨offsetBound - 1, offsetBound - 1⟩⟩,
         .code ⟨.statement, "a\\", ⟨0, 4⟩, ⟨1, 3⟩⟩, .code ⟨.expression, "", ⟨7, 7⟩, ⟨7, 7⟩⟩,
         .code ⟨.feature, "\"b\"", ⟨5, 2⟩, ⟨5, 9⟩⟩, .inclusion ⟨"$(Dir)/c.tt", ⟨12, 20⟩, ⟨0, offsetBound - 1⟩⟩] },
     { source := ⟨""⟩, text := "", nodes := [] }]
  macros := .ofList [("Dir", "x"), ("", "\n"), ("Dir", "y")]

theorem Exchange.parse_render_motley :
    motleyBundle.SpansFit ∧ Bundle.parse motleyBundle.toJson.render = .ok motleyBundle := by
  have fit : motleyBundle.SpansFit := by decide
  exact ⟨fit, Exchange.parse_render.1 motleyBundle fit⟩

end TextTemplate
