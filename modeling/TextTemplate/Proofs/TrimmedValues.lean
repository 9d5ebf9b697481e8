import Mathlib.Data.List.TakeWhile
import TextTemplate.Proofs.OffsetSums

/-! The values that are trimmed for a directive. One value counts for each name, between blanks that do not; which
of them are looked at is up to the rule that the directive is under and to what the walk has seen. There is room
for the directive if none of those values ends where no offset is. -/

namespace TextTemplate

namespace DirectiveKind

def keyword : DirectiveKind → String
  | .template => "template"
  | .parameter => "parameter"
  | .output => "output"
  | .assembly => "assembly"
  | .namespaceImport => "import"
  | .inclusion => "include"

/-- The attributes that a directive of the kind cannot do without, in the order in which they are looked for. -/
def needs : DirectiveKind → List String
  | .parameter => ["type", "name"]
  | .assembly => ["name"]
  | .namespaceImport => ["namespace"]
  | .inclusion => ["file"]
  | .template => []
  | .output => []

end DirectiveKind

namespace Directive
variable {given : Directive} {name : String}

/-- The attribute that counts for a name: the first one, whatever the case of its letters. -/
structure Gives (given : Directive) (name : String) (valued : Attribute) : Prop where
  named : Text.eqIgnoringCase valued.name name = true
  first : ∃ before after, given.attributes = before ++ valued :: after ∧
    ∀ other ∈ before, Text.eqIgnoringCase other.name name = false

/-- There is no such attribute, or the one that counts has nothing but blanks for a value. -/
def Lacks (given : Directive) (name : String) : Prop :=
  ∀ valued, given.Gives name valued → ∀ c ∈ valued.value.toList, Text.isBlank c = true

/-- The attribute that counts has more than blanks for a value: `text`, which is at `span`, between blanks. -/
def Carries (given : Directive) (name text : String) (span : Span) : Prop :=
  ∃ (valued : Attribute) (leading trailing : List Char), given.Gives name valued ∧
    valued.value.toList = leading ++ (text.toList ++ trailing) ∧
    (∀ c ∈ leading, Text.isBlank c = true) ∧ (∀ c ∈ trailing, Text.isBlank c = true) ∧ text.toList ≠ [] ∧
    (∀ c ∈ text.toList.head?, Text.isBlank c = false) ∧ (∀ c ∈ text.toList.getLast?, Text.isBlank c = false) ∧
    span = ⟨valued.valueSpan.start + Text.width leading,
      valued.valueSpan.start + Text.width leading + Text.width text.toList⟩

/-- There is such a value, but it would end where no offset is. -/
def Exceeds (given : Directive) (name : String) : Prop :=
  ∃ text span, given.Carries name text span ∧ offsetBound ≤ span.stop

def Follows (given : Directive) (kind : DirectiveKind) : Prop :=
  Text.eqIgnoringCase kind.keyword given.name = true

private theorem attribute?_eq_some_iff {valued : Attribute} :
    given.attribute? name = some valued ↔ given.Gives name valued := by
  constructor
  · intro found
    obtain ⟨named, before, after, split, others⟩ := List.find?_eq_some_iff_append.mp found
    refine ⟨named, before, after, split, ?_⟩
    intro other member
    exact (Bool.not_eq_true' _).mp (others other member)
  · rintro ⟨named, before, after, split, others⟩
    apply List.find?_eq_some_iff_append.mpr
    refine ⟨named, before, after, split, ?_⟩
    intro other member
    exact (Bool.not_eq_true' _).mpr (others other member)

end Directive

namespace Text

private theorem head_trimStart (text : List Char) : ∀ c ∈ (trimStart text).head?, isBlank c = false := by
  intro c first
  have kept : (text.dropWhile isBlank).head? = some c := first
  have filled := List.head?_dropWhile_not isBlank text
  rw [kept] at filled
  exact filled

private theorem trim_ends {text : List Char} (kept : trim text ≠ []) :
    (∀ c ∈ (trim text).head?, isBlank c = false) ∧ ∀ c ∈ (trim text).getLast?, isBlank c = false := by
  constructor
  · intro c first
    have front : trim text <+: trimStart text := by
      rw [trim, trimEnd, ← List.reverse_suffix, List.reverse_reverse]
      exact List.dropWhile_suffix _
    obtain ⟨rest, split⟩ := front
    apply head_trimStart text
    rw [← split, List.head?_append_of_ne_nil _ kept]
    exact first
  · intro c last
    rw [trim, trimEnd, List.getLast?_reverse] at last
    exact head_trimStart _ c last

private theorem trim_between {leading kept trailing : List Char} (before : ∀ c ∈ leading, isBlank c = true)
    (after : ∀ c ∈ trailing, isBlank c = true) (nonempty : kept ≠ [])
    (first : ∀ c ∈ kept.head?, isBlank c = false) (last : ∀ c ∈ kept.getLast?, isBlank c = false) :
    (leading ++ (kept ++ trailing)).takeWhile isBlank = leading ∧ trim (leading ++ (kept ++ trailing)) = kept := by
  have stays (text rest : List Char) (full : text ≠ []) (filled : ∀ c ∈ text.head?, isBlank c = false) :
      (text ++ rest).takeWhile isBlank = [] ∧ (text ++ rest).dropWhile isBlank = text ++ rest := by
    cases text with
    | nil => exact absurd rfl full
    | cons c others =>
      have filled := Bool.eq_false_iff.mp (filled c rfl)
      exact ⟨List.takeWhile_cons_of_neg filled, List.dropWhile_cons_of_neg filled⟩
  obtain ⟨nothing, behind⟩ := stays kept trailing nonempty first
  have ends : (trailing.reverse ++ kept.reverse).dropWhile isBlank = kept.reverse := by
    have reversed := (stays kept.reverse [] (List.reverse_ne_nil_iff.mpr nonempty)
      (by rw [List.head?_reverse]; exact last)).2
    rw [List.append_nil] at reversed
    rw [List.dropWhile_append_of_pos fun c member => after c (List.mem_reverse.mp member), reversed]
  constructor
  · rw [List.takeWhile_append_of_pos before, nothing, List.append_nil]
  · rw [trim, trimStart, List.dropWhile_append_of_pos before, behind, trimEnd, List.reverse_append, ends,
      List.reverse_reverse]

private theorem trim_eq_nil_iff {text : List Char} : trim text = [] ↔ ∀ c ∈ text, isBlank c = true := by
  constructor
  · intro nothing
    obtain ⟨trailing, split, blanks⟩ := exists_trim text
    rw [nothing, List.nil_append] at split
    intro c member
    rw [split] at member
    rcases List.mem_append.mp member with leading | trailed
    · exact List.mem_takeWhile_imp leading
    · exact blanks c trailed
  · intro blanks
    rw [trim, trimStart, List.dropWhile_eq_nil_iff.mpr blanks]
    rfl

end Text

private theorem Attribute.trimmed?_eq_none_iff {valued : Attribute} :
    valued.trimmed? = none ↔ ∀ c ∈ valued.value.toList, Text.isBlank c = true := by
  rw [← Text.trim_eq_nil_iff, trimmed?]
  cases Text.trim valued.value.toList with
  | nil => exact iff_of_true rfl rfl
  | cons first rest => exact iff_of_false (Option.some_ne_none _) (List.cons_ne_nil _ _)

namespace Directive
variable {given : Directive} {name : String} {rule : DirectiveRule}

theorem value?_eq_none_iff : given.value? name = none ↔ given.Lacks name := by
  rw [value?, Option.bind_eq_none_iff]
  constructor
  · intro blank valued gives
    exact Attribute.trimmed?_eq_none_iff.mp (blank valued (attribute?_eq_some_iff.mpr gives))
  · intro lacks valued found
    exact Attribute.trimmed?_eq_none_iff.mpr (lacks valued (attribute?_eq_some_iff.mp found))

theorem value?_eq_some_iff {text : String} {span : Span} :
    given.value? name = some (text, span) ↔ given.Carries name text span := by
  constructor
  · intro valued
    obtain ⟨counts, found, trimmed⟩ := Option.bind_eq_some_iff.mp valued
    have kept : Text.trim counts.value.toList ≠ [] := by
      intro blank
      have lost := Attribute.trimmed?_eq_none_iff.mpr (Text.trim_eq_nil_iff.mp blank)
      cases lost.symm.trans trimmed
    obtain ⟨trailing, split, blanks⟩ := Text.exists_trim counts.value.toList
    obtain ⟨first, last⟩ := Text.trim_ends kept
    cases Attribute.trimmed?_eq trimmed
    refine ⟨counts, counts.value.toList.takeWhile Text.isBlank, trailing, attribute?_eq_some_iff.mp found,
      ?_, ?_, blanks, ?_, ?_, ?_, ?_⟩
    · rwa [String.toList_ofList]
    · exact fun c member => List.mem_takeWhile_imp member
    · rwa [String.toList_ofList]
    · rwa [String.toList_ofList]
    · rwa [String.toList_ofList]
    · rw [String.toList_ofList, Span.narrow, Nat.add_assoc]
  · rintro ⟨counts, leading, trailing, gives, split, before, after, nonempty, first, last, rfl⟩
    obtain ⟨front, kept⟩ := Text.trim_between before after nonempty first last
    rw [← split] at front kept
    cases trimmed : counts.trimmed? with
    | none =>
      rw [Text.trim_eq_nil_iff.mpr (Attribute.trimmed?_eq_none_iff.mp trimmed)] at kept
      exact absurd kept.symm nonempty
    | some value =>
      rw [value?, attribute?_eq_some_iff.mpr gives, Option.bind_some, trimmed, Attribute.trimmed?_eq trimmed,
        front, kept, String.ofList_toList, Span.narrow, Nat.add_assoc]

private theorem fits_iff {names : List String} : given.fits names = true ↔ ∀ name ∈ names, ¬given.Exceeds name := by
  rw [fits, List.all_eq_true]
  refine forall₂_congr fun name _ => ?_
  have exceeds : given.Exceeds name ↔ ∃ value, given.value? name = some value ∧ offsetBound ≤ value.2.stop := by
    constructor
    · rintro ⟨text, span, carries, far⟩
      exact ⟨(text, span), value?_eq_some_iff.mpr carries, far⟩
    · rintro ⟨⟨text, span⟩, valued, far⟩
      exact ⟨text, span, value?_eq_some_iff.mp valued, far⟩
  rw [exceeds, value?]
  cases given.attribute? name with
  | none => exact iff_of_true rfl nofun
  | some counts =>
    rw [Option.all_some, Attribute.fits, Option.bind_some]
    cases trimmed : counts.trimmed? with
    | none => exact iff_of_true rfl nofun
    | some value =>
      have ordered : value.2.start ≤ value.2.stop := by
        rw [Attribute.trimmed?_eq trimmed]
        exact Nat.add_le_add_left (Nat.le_add_right _ _) _
      rw [Option.all_some, Span.fits_iff]
      constructor
      · rintro ⟨-, near⟩ ⟨_, same, far⟩
        cases same
        omega
      · intro near
        have room : value.2.stop < offsetBound := Nat.lt_of_not_le fun far => near ⟨value, rfl, far⟩
        exact ⟨Nat.lt_of_le_of_lt ordered room, room⟩

end Directive

/-- The rule has the name of the directives of a kind, and requires what they need. -/
structure DirectiveRule.Suits (rule : DirectiveRule) (kind : DirectiveKind) : Prop where
  same : rule.kind = kind
  name : rule.name = kind.keyword
  required : rule.required.map AttributeRule.name = kind.needs

private theorem DirectiveRule.suits_kind {rule : DirectiveRule} (listed : rule ∈ all) : rule.Suits rule.kind := by
  have each : ∀ rule ∈ all, rule.name = rule.kind.keyword ∧ rule.required.map AttributeRule.name = rule.kind.needs := by
    decide
  exact ⟨rfl, (each rule listed).1, (each rule listed).2⟩

namespace Directive
variable {given : Directive} {name : String} {rule : DirectiveRule} {kind : DirectiveKind}

theorem follows_of_find? (known : DirectiveRule.find? given.name = some rule) :
    given.Follows rule.kind ∧ rule.Suits rule.kind := by
  have suits := DirectiveRule.suits_kind (List.mem_of_find?_eq_some known)
  have named := List.find?_some (p := fun rule : DirectiveRule => Text.eqIgnoringCase rule.name given.name) known
  rw [suits.name] at named
  exact ⟨named, suits⟩

theorem Follows.find? (follows : given.Follows kind) :
    ∃ rule, DirectiveRule.find? given.name = some rule ∧ rule.Suits kind := by
  have covered : ∀ kind : DirectiveKind, ∃ rule ∈ DirectiveRule.all, rule.kind = kind := by
    rintro (_ | _) <;> decide
  have apart (first second : DirectiveKind)
      (same : first.keyword.toList.map Char.toLower = second.keyword.toList.map Char.toLower) : first = second := by
    cases first <;> cases second <;> first | rfl | exact absurd same (by decide)
  obtain ⟨own, listed, rfl⟩ := covered kind
  have named := follows
  rw [Follows, ← (DirectiveRule.suits_kind listed).name] at named
  have ruled : (DirectiveRule.find? given.name).isSome = true := List.find?_isSome.mpr ⟨own, listed, named⟩
  obtain ⟨rule, known⟩ := Option.isSome_iff_exists.mp ruled
  obtain ⟨also, suits⟩ := follows_of_find? known
  have equal := apart _ _ ((eq_of_beq also).trans (eq_of_beq follows).symm)
  exact ⟨rule, known, equal ▸ suits⟩

theorem find?_eq_none_iff : DirectiveRule.find? given.name = none ↔ ∀ kind, ¬given.Follows kind := by
  constructor
  · intro unknown kind follows
    obtain ⟨rule, known, -⟩ := follows.find?
    cases unknown.symm.trans known
  · intro strange
    cases known : DirectiveRule.find? given.name with
    | none => rfl
    | some rule => exact absurd (follows_of_find? known).1 (strange rule.kind)

/-- What a rule misses is the first of the attributes that the kind of the directive needs. -/
theorem missingAttribute?_name (suits : rule.Suits kind) :
    (Walk.missingAttribute? rule given).map AttributeRule.name =
      kind.needs.find? fun name => (given.value? name).isNone := by
  rw [← suits.required, List.find?_map]
  rfl

theorem find?_needs_eq_some_iff : (kind.needs.find? fun name => (given.value? name).isNone) = some name ↔
    given.Lacks name ∧ ∃ before after, kind.needs = before ++ name :: after ∧
      ∀ earlier ∈ before, ¬given.Lacks earlier := by
  simp only [List.find?_eq_some_iff_append, Option.isNone_iff_eq_none, value?_eq_none_iff, Bool.not_eq_true',
    ← Bool.not_eq_true]

theorem find?_needs_eq_none_iff : (kind.needs.find? fun name => (given.value? name).isNone) = none ↔
    ∀ name ∈ kind.needs, ¬given.Lacks name := by
  simp only [List.find?_eq_none, Option.isNone_iff_eq_none, value?_eq_none_iff]

end Directive

namespace Walk

/-- The attributes whose values are trimmed for a directive: the required ones, in their order up to the
first that is lacking, and those that only its effect asks for. -/
inductive Trims (walk : Walk) (given : Directive) : String → Prop where
  | needed {kind : DirectiveKind} {before after : List String} {name : String} (follows : given.Follows kind)
      (other : kind ≠ .inclusion) (needs : kind.needs = before ++ name :: after)
      (carried : ∀ earlier ∈ before, ¬given.Lacks earlier) : Trims walk given name
  | host (follows : given.Follows .template) (first : walk.seenTemplateDirective = false) :
      Trims walk given "hostspecific"
  | base (follows : given.Follows .template) (first : walk.seenTemplateDirective = false) :
      Trims walk given "inherits"
  | extension (follows : given.Follows .output) (first : walk.outputExtension? = none) :
      Trims walk given "extension"

variable {walk : Walk} {given : Directive}

private theorem mem_checkedAttributes {rule : DirectiveRule} {kind : DirectiveKind} {name : String}
    (suits : rule.Suits kind) : name ∈ checkedAttributes rule given ↔
      ∃ before after, kind.needs = before ++ name :: after ∧ (∀ earlier ∈ before, ¬given.Lacks earlier) ∧
        ¬given.Lacks name := by
  have carries (name : String) : (given.value? name).isSome = true ↔ ¬given.Lacks name := by
    rw [← Directive.value?_eq_none_iff, Option.isSome_iff_ne_none]
  have names : checkedAttributes rule given = kind.needs.takeWhile fun name => (given.value? name).isSome := by
    rw [← suits.required, List.takeWhile_map]
    rfl
  rw [names]
  constructor
  · intro listed
    have each (earlier : String) (member : earlier ∈ kind.needs.takeWhile fun name => (given.value? name).isSome) :
        ¬given.Lacks earlier := by
      have valued := List.mem_takeWhile_imp member
      exact (carries earlier).mp valued
    have whole := List.takeWhile_append_dropWhile (p := fun name => (given.value? name).isSome) (l := kind.needs)
    obtain ⟨before, between, split⟩ := List.append_of_mem listed
    rw [split, List.append_assoc, List.cons_append] at whole
    refine ⟨before, _, whole.symm, ?_, each name listed⟩
    exact fun earlier member => each earlier (split ▸ List.mem_append_left _ member)
  · rintro ⟨before, after, split, carried, last⟩
    rw [split, List.takeWhile_append_of_pos fun earlier member => (carries earlier).mpr (carried earlier member)]
    simp [(carries name).mpr last]

private theorem trims_of_mem {name : String} (listed : name ∈ walk.trimmedAttributes given) :
    walk.Trims given name := by
  unfold trimmedAttributes at listed
  cases known : DirectiveRule.find? given.name with
  | none =>
    rw [known] at listed
    cases listed
  | some rule =>
    obtain ⟨follows, suits⟩ := Directive.follows_of_find? known
    simp only [known] at listed
    split at listed
    next => cases listed
    next other =>
      rcases List.mem_append.mp listed with checked | consulted
      · obtain ⟨before, after, needs, carried, -⟩ := (mem_checkedAttributes suits).mp checked
        exact .needed follows other needs carried
      · split at consulted
        next => cases consulted
        next present =>
          have none := congrArg (Option.map AttributeRule.name) (Option.not_isSome_iff_eq_none.mp present)
          rw [Directive.missingAttribute?_name suits] at none
          have carried := Directive.find?_needs_eq_none_iff.mp none
          have needed (name : String) (need : name ∈ rule.kind.needs) : walk.Trims given name := by
            obtain ⟨before, after, split⟩ := List.append_of_mem need
            exact .needed follows other split fun earlier member =>
              carried earlier (split ▸ List.mem_append_left _ member)
          generalize rule.kind = kind at *
          cases kind with
          | namespaceImport | parameter | assembly => exact needed name consulted
          | template =>
            rw [Walk.consulted] at consulted
            split at consulted
            next => cases consulted
            next first =>
              rcases List.mem_pair.mp consulted with rfl | rfl
              · exact .host follows (Bool.eq_false_iff.mpr first)
              · exact .base follows (Bool.eq_false_iff.mpr first)
          | output =>
            rw [Walk.consulted] at consulted
            split at consulted
            next => cases consulted
            next first =>
              cases List.mem_singleton.mp consulted
              exact .extension follows (Option.not_isSome_iff_eq_none.mp first)
          | inclusion => exact absurd rfl other

private theorem Trims.mem {name : String} (trims : walk.Trims given name) (carried : ¬given.Lacks name) :
    name ∈ walk.trimmedAttributes given := by
  have optional {kind : DirectiveKind} (follows : given.Follows kind) (free : kind.needs = [])
      (other : kind ≠ .inclusion) (consulted : name ∈ walk.consulted kind) : name ∈ walk.trimmedAttributes given := by
    obtain ⟨rule, known, suits⟩ := follows.find?
    have nothing := suits.required.trans free
    have present : missingAttribute? rule given = none := by
      rw [missingAttribute?, List.map_eq_nil_iff.mp nothing]
      rfl
    cases suits.same
    simp only [trimmedAttributes, known, if_neg other, present]
    exact List.mem_append_right _ consulted
  cases trims with
  | needed follows other needs before =>
    obtain ⟨rule, known, suits⟩ := follows.find?
    cases suits.same
    simp only [trimmedAttributes, known, if_neg other]
    exact List.mem_append_left _ ((mem_checkedAttributes suits).mpr ⟨_, _, needs, before, carried⟩)
  | host follows first | base follows first =>
    refine optional follows rfl DirectiveKind.noConfusion ?_
    rw [Walk.consulted, if_neg (Bool.eq_false_iff.mp first)]
    simp
  | extension follows first =>
    refine optional follows rfl DirectiveKind.noConfusion ?_
    rw [Walk.consulted, first]
    exact List.mem_singleton_self _

theorem fits_trimmed_iff : given.fits (walk.trimmedAttributes given) = true ↔
    ∀ name, walk.Trims given name → ¬given.Exceeds name := by
  rw [Directive.fits_iff]
  constructor
  · intro near name trims exceeds
    have carried : ¬given.Lacks name := by
      obtain ⟨text, span, carries, -⟩ := exceeds
      intro lacks
      cases (Directive.value?_eq_none_iff.mpr lacks).symm.trans (Directive.value?_eq_some_iff.mpr carries)
    exact near name (trims.mem carried) exceeds
  · exact fun near name listed => near name (trims_of_mem listed)

end Walk

end TextTemplate
