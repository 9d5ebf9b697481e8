import TextTemplate.Proofs.ChangedBundles
import TextTemplate.Proofs.DirectiveFates

/-! Where a class gets its base and its host from. The first template directive come upon decides,
however many includes it lies in; the frames it is absorbed into keep what it gave, and all later ones
are passed over. So what those say does not matter. -/

namespace TextTemplate

/-- What a class has from a template directive. -/
structure Heritage where
  baseClass : Section := {}
  hasBaseClass : Bool := false
  requiresHost : Bool := false
  deriving DecidableEq, Repr, Inhabited

namespace Directive

def isTemplate (given : Directive) : Bool :=
  Text.eqIgnoringCase "template" given.name

/-- The class is said to have a host. -/
def Hosts (given : Directive) : Prop :=
  ∃ answer span, given.Carries "hostspecific" answer span ∧ Text.eqIgnoringCase answer "true" = true

/-- A class inherits what is named, which is traced to where it is written. -/
inductive Bequeaths (source : SourceId) (given : Directive) : Heritage → Prop where
  | base {name : String} {span : Span} {hosted : Bool} (carries : given.Carries "inherits" name span)
      (host : hosted = true ↔ given.Hosts) :
      Bequeaths source given ⟨⟨[⟨name, some ⟨source, span, .code⟩⟩]⟩, true, hosted⟩
  | baseless {hosted : Bool} (lacks : given.Lacks "inherits") (host : hosted = true ↔ given.Hosts) :
      Bequeaths source given ⟨{}, false, hosted⟩

private theorem bequeaths_values (source : SourceId) (given : Directive) : given.Bequeaths source
    { baseClass := ⟨(given.value? "inherits").toList.map fun base => ⟨base.1, some ⟨source, base.2, .code⟩⟩⟩
      hasBaseClass := (given.value? "inherits").isSome
      requiresHost := (given.value? "hostspecific").any fun host => Text.eqIgnoringCase host.1 "true" } := by
  have host : ((given.value? "hostspecific").any fun host => Text.eqIgnoringCase host.1 "true") = true ↔
      given.Hosts := by
    rw [Option.any_eq_true]
    constructor
    · rintro ⟨⟨answer, span⟩, valued, said⟩
      exact ⟨answer, span, value?_eq_some_iff.mp valued, said⟩
    · rintro ⟨answer, span, carries, said⟩
      exact ⟨(answer, span), value?_eq_some_iff.mpr carries, said⟩
  cases named : given.value? "inherits" with
  | none => exact .baseless (value?_eq_none_iff.mp named) host
  | some base => exact .base (value?_eq_some_iff.mp named) host

theorem isTemplate_iff_rule {given : Directive} : given.isTemplate = true ↔
    ∃ rule, DirectiveRule.find? given.name = some rule ∧ rule.Suits .template := by
  constructor
  · intro named
    have follows : given.Follows .template := named
    exact follows.find?
  · rintro ⟨rule, known, suits⟩
    have follows := (follows_of_find? known).1
    rw [suits.same] at follows
    exact follows

theorem isTemplate_sound {given : Directive} (template : given.isTemplate = true) : given.complaint? = none := by
  obtain ⟨rule, known, suits⟩ := isTemplate_iff_rule.mp template
  have other : rule.kind ≠ .inclusion := by
    rw [suits.same]
    exact DirectiveKind.noConfusion
  rw [complaint?_checked known other, Walk.missingAttribute?, List.map_eq_nil_iff.mp suits.required]
  rfl

private theorem isTemplate_iff {given : Directive} : given.isTemplate = true ↔ given.fate = .applied .template := by
  rw [fate_eq_applied_iff]
  constructor
  · intro template
    obtain ⟨rule, known, suits⟩ := isTemplate_iff_rule.mp template
    exact ⟨rule, known, suits.same, isTemplate_sound template⟩
  · rintro ⟨rule, known, kind, -⟩
    exact isTemplate_iff_rule.mpr ⟨rule, known, kind ▸ (follows_of_find? known).2⟩

end Directive

def Frame.heritage (frame : Frame) : Heritage :=
  ⟨frame.baseClass, frame.hasBaseClass, frame.requiresHost⟩

namespace Encounter

/-- The template directive that is come upon, and the source it stands in. -/
def template? : Encounter → Option (SourceId × Directive)
  | .directive source given => if given.isTemplate then some (source, given) else none
  | _ => none

private theorem first_cons (first? : Option (SourceId × Directive)) (encounter : Encounter) (rest : List Encounter) :
    first?.or ((encounter :: rest).findSome? template?) =
      (first?.or encounter.template?).or (rest.findSome? template?) := by
  rw [← List.singleton_append, List.findSome?_append, List.findSome?_singleton, Option.or_assoc]

/-- The same is come upon, but a template directive may have other attributes. -/
inductive Reattributed : Encounter → Encounter → Prop where
  | same (encounter : Encounter) : Reattributed encounter encounter
  | template {source : SourceId} {given : Directive} (attributes : List Attribute)
      (template : given.isTemplate = true) :
      Reattributed (.directive source given) (.directive source { given with attributes })

private theorem problem?_template {source : SourceId} {given : Directive} (template : given.isTemplate = true) :
    (Encounter.directive source given).problem? = none := by
  rw [problem?, Directive.isTemplate_sound template, Option.map_none]

private theorem Reattributed.problem? {encounter other : Encounter} (pair : encounter.Reattributed other) :
    other.problem? = encounter.problem? := by
  cases pair with
  | same => rfl
  | @template source given attributes template =>
    have again : Directive.isTemplate { given with attributes } = true := template
    rw [problem?_template template, problem?_template again]

private theorem reattributed_problems {encounters others : List Encounter}
    (pairs : List.Forall₂ Reattributed encounters others) :
    others.filterMap Encounter.problem? = encounters.filterMap Encounter.problem? := by
  induction pairs with
  | nil => rfl
  | cons pair _ ih => rw [List.filterMap_cons, List.filterMap_cons, pair.problem?, ih]

end Encounter

namespace Walk
variable {walk : Walk} {macros : Macros} {source : SourceId} {given : Directive}

/-- All a walk has come to by way of template directives, of which `first?` was the first. -/
structure Inherits (first? : Option (SourceId × Directive)) (walk : Walk) : Prop where
  seen : walk.seenTemplateDirective = first?.isSome
  heritage : first?.elim (walk.current.heritage = {}) fun first => first.2.Bequeaths first.1 walk.current.heritage

private theorem inherits_start (root : SourceId) : (start root).Inherits none := ⟨rfl, rfl⟩

private theorem visitDirective_template (template : given.isTemplate = true) :
    walk.visitDirective macros source given = walk.applyTemplate source given := by
  obtain ⟨rule, known, suits⟩ := Directive.isTemplate_iff_rule.mp template
  rw [visitDirective_sound known (Directive.isTemplate_sound template), suits.same, applyDirective]

private theorem applyTemplate_seen (seen : walk.seenTemplateDirective = true) : walk.applyTemplate source given = walk :=
  if_pos seen

private theorem Inherits.applyTemplate (inherits : walk.Inherits none) :
    (walk.applyTemplate source given).Inherits (some (source, given)) := by
  have applied : walk.Applied .empty source given .template _ := applyTemplate_applied
  generalize walk.applyTemplate source given = after at applied ⊢
  cases applied with
  | passed later => cases later.symm.trans inherits.seen
  | inherited first =>
    have unset : walk.current.hasBaseClass = false := congrArg Heritage.hasBaseClass inherits.heritage
    have unhosted : walk.current.requiresHost = false := congrArg Heritage.requiresHost inherits.heritage
    have empty : walk.current.baseClass = {} := congrArg Heritage.baseClass inherits.heritage
    refine ⟨rfl, ?_⟩
    simp only [Frame.heritage, unset, unhosted, empty, Bool.false_or, Option.elim_some]
    exact Directive.bequeaths_values source given

private theorem Inherits.visitDirective {first? : Option (SourceId × Directive)} (inherits : walk.Inherits first?)
    (other : given.isTemplate = false) : (walk.visitDirective macros source given).Inherits first? := by
  have apart : given.fate ≠ .applied .template := by
    intro decided
    cases other.symm.trans (Directive.isTemplate_iff.mpr decided)
  constructor
  · refine (visitDirective_unseen Walk.seenTemplateDirective (fun _ => rfl) ?_).trans inherits.seen
    intro kind after decided effect
    cases effect with
    | inherited first => exact absurd decided apart
    | _ => rfl
  · rw [visitDirective_unseen (fun walk => walk.current.heritage) (fun _ => rfl)]
    · exact inherits.heritage
    intro kind after decided effect
    cases effect with
    | inherited first => exact absurd decided apart
    | _ => rfl

private theorem Inherits.visitCode {first? : Option (SourceId × Directive)} (inherits : walk.Inherits first?)
    (fragment : CodeFragment) : (walk.visitCode source fragment).Inherits first? := by
  have unseen := visitCode_unseen walk source Frame.heritage (fun _ _ => rfl) (fun _ _ => rfl) fragment
  refine ⟨?_, unseen ▸ inherits.heritage⟩
  rw [visitCode_effect walk source fragment (.refl _) rfl]
  exact inherits.seen

theorem Inherits.gather {first? : Option (SourceId × Directive)} (inherits : walk.Inherits first?)
    (macros : Macros) (encounter : Encounter) :
    (walk.gather macros encounter).Inherits (first?.or encounter.template?) := by
  have checked : walk.check.Inherits first? := ⟨inherits.seen, inherits.heritage⟩
  cases encounter with
  | directive source given =>
    rw [Walk.gather, Encounter.template?]
    split
    next template =>
      rw [visitDirective_template template]
      cases first? with
      | none => exact checked.applyTemplate
      | some first =>
        rw [applyTemplate_seen checked.seen]
        exact checked
    next other =>
      rw [Option.or_none]
      exact checked.visitDirective (Bool.eq_false_iff.mpr other)
  | code source depth fragment =>
    have leveled : Inherits first? { walk.check with depth } := ⟨inherits.seen, inherits.heritage⟩
    exact Option.or_none.symm ▸ leveled.visitCode fragment
  | run source texts => exact Option.or_none.symm ▸ ⟨inherits.seen, inherits.heritage⟩
  | refused source inclusion complaint => exact Option.or_none.symm ▸ ⟨inherits.seen, inherits.heritage⟩
  | expanded source inclusion target => exact Option.or_none.symm ▸ checked

private theorem Inherits.gatherAll {first? : Option (SourceId × Directive)} (inherits : walk.Inherits first?)
    (macros : Macros) (encounters : List Encounter) : (encounters.foldl (Walk.gather macros) walk).Inherits
      (first?.or (encounters.findSome? Encounter.template?)) := by
  induction encounters generalizing walk first? with
  | nil =>
    rw [List.findSome?_nil, Option.or_none]
    exact inherits
  | cons encounter rest ih =>
    rw [Encounter.first_cons]
    exact ih (inherits.gather macros encounter)

private theorem gather_template_seen (seen : walk.seenTemplateDirective = true) (template : given.isTemplate = true) :
    walk.gather macros (.directive source given) = walk.check := by
  have passed : walk.check.applyTemplate source given = walk.check := applyTemplate_seen seen
  rw [gather, visitDirective_template template, passed]

/-- Later template directives are passed over, and the first is the same: two walks come to the same. -/
theorem Inherits.concurs {first? : Option (SourceId × Directive)} {other : Walk} (inherits : walk.Inherits first?)
    (concurs : walk.Concurs other) {encounters others : List Encounter}
    (pairs : List.Forall₂ Encounter.Reattributed encounters others)
    (first : first?.or (others.findSome? Encounter.template?) =
      first?.or (encounters.findSome? Encounter.template?)) :
    (encounters.foldl (Walk.gather macros) walk).Concurs (others.foldl (Walk.gather macros) other) := by
  induction pairs generalizing walk other first? with
  | nil => exact concurs
  | cons pair _ ih =>
    rw [Encounter.first_cons, Encounter.first_cons] at first
    cases pair with
    | same => exact ih (inherits.gather macros _) (concurs.gather macros _) first
    | @template source given attributes template =>
      have again : Directive.isTemplate { given with attributes } = true := template
      cases first? with
      | some decided =>
        have seen := inherits.seen
        rw [List.foldl_cons, List.foldl_cons, gather_template_seen seen template,
          gather_template_seen (concurs.alike.seenTemplateDirective.trans seen) again]
        exact ih ⟨inherits.seen, inherits.heritage⟩ concurs.check first
      | none =>
        rw [Encounter.template?, Encounter.template?, if_pos template, if_pos again] at first
        have same : ({ given with attributes } : Directive) = given :=
          congrArg Prod.snd (Option.some.inj first)
        rw [same]
        have decided := inherits.gather macros (.directive source given)
        rw [Encounter.template?, if_pos template] at decided
        exact ih decided (concurs.gather macros (.directive source given)) rfl

private theorem affords_template_seen (seen : walk.seenTemplateDirective = true) (template : given.isTemplate = true) :
    walk.affords (.directive source given) = true := by
  obtain ⟨rule, known, suits⟩ := Directive.isTemplate_iff_rule.mp template
  have nothing := List.map_eq_nil_iff.mp suits.required
  have idle : walk.trimmedAttributes given = [] := by
    simp only [trimmedAttributes, known, suits.same, checkedAttributes, missingAttribute?, nothing, consulted, seen]
    rfl
  rw [affords, idle]
  rfl

private theorem Inherits.room {first? : Option (SourceId × Directive)} {other : Walk} (inherits : walk.Inherits first?)
    (concurs : walk.Concurs other) {encounters others : List Encounter}
    (pairs : List.Forall₂ Encounter.Reattributed encounters others)
    (first : first?.or (others.findSome? Encounter.template?) =
      first?.or (encounters.findSome? Encounter.template?)) :
    other.affordsAll macros others = walk.affordsAll macros encounters := by
  induction pairs generalizing walk other first? with
  | nil => rfl
  | cons pair _ ih =>
    rw [Encounter.first_cons, Encounter.first_cons] at first
    rw [affordsAll, affordsAll]
    cases pair with
    | same =>
      rw [concurs.alike.affords, ih (inherits.gather macros _) (concurs.gather macros _) first]
    | @template source given attributes template =>
      have again : Directive.isTemplate { given with attributes } = true := template
      cases first? with
      | some decided =>
        have seen := inherits.seen
        have seenToo := concurs.alike.seenTemplateDirective.trans seen
        rw [affords_template_seen seen template, affords_template_seen seenToo again,
          gather_template_seen seen template, gather_template_seen seenToo again]
        exact congrArg (true && ·) (ih ⟨inherits.seen, inherits.heritage⟩ concurs.check first)
      | none =>
        rw [Encounter.template?, Encounter.template?, if_pos template, if_pos again] at first
        have same : ({ given with attributes } : Directive) = given :=
          congrArg Prod.snd (Option.some.inj first)
        have decided := inherits.gather macros (.directive source given)
        rw [Encounter.template?, if_pos template] at decided
        rw [same, concurs.alike.affords, ih decided (concurs.gather macros _) rfl]

end Walk

def Change.templateAttributes : Change where
  texts _ _ := False
  directive _ node given := ∃ before : Directive, ∃ attributes, node = .directive before ∧
    before.isTemplate = true ∧ given = { before with attributes }

private theorem Change.templateAttributes_carries (session : Session) :
    Change.templateAttributes.Carries session Eq (List.Forall₂ Encounter.Reattributed) := by
  apply Change.carries_each
  · intro literal parts impossible
    exact impossible
  · exact .same
  · rintro source node given ⟨before, attributes, rfl, template, rfl⟩
    refine ⟨rfl, ?_⟩
    intro sources
    exact ⟨rfl, fun depth => .template attributes template⟩

namespace Bundle

def firstTemplate? (bundle : Bundle) (options : Options) : Option (SourceId × Directive) :=
  (bundle.encounters options).findSome? Encounter.template?

/-- The base class and the host are what the first template directive says, or none when there is no such
directive. What other template directives say makes no difference to the program. -/
theorem first_template_decides (bundle : Bundle) (options : Options) :
    (∀ root, bundle.find? bundle.root = some root →
      match (bundle.session options).collect root with
      | .ok collected =>
        bundle.generate options =
          .ok (.assemble collected { options with macros := options.macros.withDefaults bundle.macros }) ∧
        (match bundle.firstTemplate? options with
          | some (source, given) => given.Bequeaths source collected.frame.heritage
          | none => collected.frame.heritage = {})
      | .error interruption => interruption = .overflow ∧ (∃ span, bundle.Takes options span ∧ ¬span.IsWord) ∧
        bundle.generate options = .error .overflow) ∧
    ∀ other, bundle.Changed .templateAttributes other →
      List.Forall₂ Encounter.Reattributed (bundle.encounters options) (other.encounters options) ∧
      (other.firstTemplate? options = bundle.firstTemplate? options →
        other.generate options = bundle.generate options) := by
  constructor
  · intro root located
    have inherits := (Walk.inherits_start root.source).gatherAll (bundle.session options).macros
      ((bundle.session options).encountersOf root)
    rw [generate_located located, collect_session located, firstTemplate?, encounters, located]
    cases room : bundle.fits options with
    | false => exact ⟨rfl, fits_eq_false_iff.mp room, rfl⟩
    | true =>
      refine ⟨rfl, ?_⟩
      have heritage := inherits.heritage
      rw [Option.none_or] at heritage
      cases first : ((bundle.session options).encountersOf root).findSome? Encounter.template? with
      | none =>
        rw [first] at heritage
        exact heritage
      | some decided =>
        rw [first] at heritage
        exact heritage
  · intro other changed
    have pairs := changed.encounters_related (Change.templateAttributes_carries (bundle.session options))
    refine ⟨pairs, ?_⟩
    intro first
    apply changed.generate_eq
    · intro macros
      exact (Walk.inherits_start bundle.root).concurs (.refl _) pairs first
    · rw [fits_encounters, fits_encounters, changed.root, changed.macros]
      exact (Walk.inherits_start bundle.root).room (.refl _) pairs first
    · exact Encounter.reattributed_problems pairs

def lateRoot (attributes : List Attribute) : Template where
  source := ⟨"a"⟩
  text := ""
  nodes := [.inclusion ⟨"b", ⟨0, 1⟩, ⟨0, 1⟩⟩, .directive ⟨"template", ⟨1, 9⟩, attributes, ⟨1, 30⟩⟩]

def earlyDirective : Directive :=
  ⟨"Template", ⟨0, 8⟩, [⟨"inherits", " Early ", ⟨10, 17⟩⟩, ⟨"hostSpecific", "TRUE", ⟨20, 24⟩⟩], ⟨0, 30⟩⟩

def earlyTarget : Template := ⟨⟨"b"⟩, "", [.directive earlyDirective]⟩

def lateBundle (attributes : List Attribute) : Bundle := ⟨⟨"a"⟩, [lateRoot attributes, earlyTarget], .empty⟩

private theorem lateBundle_first (attributes : List Attribute) :
    (lateBundle attributes).firstTemplate? {} = some (⟨"b"⟩, earlyDirective) := by
  have aimed : (lateBundle attributes).target? ⟨"a"⟩ ⟨"b", ⟨0, 1⟩, ⟨0, 1⟩⟩ = some ⟨"b"⟩ := by
    show Bundle.target? ⟨⟨"a"⟩, [], .empty⟩ _ _ = _
    decide +kernel
  have early : Encounter.template? (.directive ⟨"b"⟩ earlyDirective) = some (⟨"b"⟩, earlyDirective) := by
    decide
  have decided : ((lateBundle attributes).session {}).expansion ⟨[⟨"a"⟩]⟩ ⟨"a"⟩ ⟨"b", ⟨0, 1⟩, ⟨0, 1⟩⟩ =
      .expand earlyTarget ⟨[⟨"b"⟩, ⟨"a"⟩]⟩ :=
    session_expand aimed rfl rfl
  have located : (lateBundle attributes).find? (lateBundle attributes).root = some (lateRoot attributes) := rfl
  rw [firstTemplate?, encounters, located]
  dsimp only [Session.encountersOf, lateRoot]
  rw [Session.encounters_expand _ _ _ decided, earlyTarget, Session.encounters_cons_plain rfl rfl]
  show List.findSome? Encounter.template? (.expanded _ _ _ :: .directive ⟨"b"⟩ earlyDirective :: _) = _
  rw [List.findSome?_cons, List.findSome?_cons, early]
  rfl

private theorem early_bequeaths {source : SourceId} {heritage : Heritage}
    (inherits : earlyDirective.Bequeaths source heritage) :
    heritage = ⟨⟨[⟨"Early", some ⟨source, ⟨11, 16⟩, .code⟩⟩]⟩, true, true⟩ := by
  have named : earlyDirective.value? "inherits" = some ("Early", ⟨11, 16⟩) := by decide
  have answered : earlyDirective.value? "hostspecific" = some ("TRUE", ⟨20, 24⟩) := by decide
  have hosts : earlyDirective.Hosts := ⟨_, _, Directive.value?_eq_some_iff.mp answered, by decide⟩
  cases inherits with
  | base carries host =>
    cases named.symm.trans (Directive.value?_eq_some_iff.mpr carries)
    rw [host.mpr hosts]
  | baseless lacks => cases named.symm.trans (Directive.value?_eq_none_iff.mpr lacks)

theorem first_template_decides_late :
    (∃ collected, ((lateBundle []).session {}).collect (lateRoot []) = .ok collected ∧
      collected.frame.heritage = ⟨⟨[⟨"Early", some ⟨⟨"b"⟩, ⟨11, 16⟩, .code⟩⟩]⟩, true, true⟩) ∧
    (lateBundle [⟨"inherits", "Late", ⟨20, 24⟩⟩]).generate {} = (lateBundle []).generate {} := by
  obtain ⟨decided, unmoved⟩ := first_template_decides (lateBundle []) {}
  constructor
  · have collected := collect_session (show (lateBundle []).find? (lateBundle []).root = some (lateRoot []) from rfl) {}
    rw [fits_of_isRoomy (by decide), if_pos rfl] at collected
    have outcome := decided (lateRoot []) rfl
    rw [collected] at outcome
    refine ⟨_, collected, ?_⟩
    have inherits := outcome.2
    rw [lateBundle_first] at inherits
    exact early_bequeaths inherits
  · have changed : (lateBundle []).Changed .templateAttributes (lateBundle [⟨"inherits", "Late", ⟨20, 24⟩⟩]) :=
      ⟨rfl, rfl, .cons ⟨rfl, rfl, .keep (.directive ⟨_, _, rfl, rfl, rfl⟩ .nil)⟩
        (.cons ⟨rfl, rfl, .keep .nil⟩ .nil)⟩
    exact (unmoved _ changed).2 ((lateBundle_first _).trans (lateBundle_first _).symm)

end Bundle

end TextTemplate
