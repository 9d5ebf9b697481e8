import TextTemplate.Proofs.RecordedProblems
import TextTemplate.Proofs.TrimmedValues

/-! What becomes of a directive. An unknown one is ignored, one that lacks something is refused with one
problem, and any other is applied in full; which of these it is depends on the directive alone. The table
of required attributes and the attributes that a directive's effect is made from are two lists, which have
to agree: otherwise a directive could be dropped without a word. Nothing comes of it at all when the place
of a value that is trimmed has no offset. -/

namespace TextTemplate

namespace Directive
variable {given : Directive} {name : String}

theorem mapped_value? {value : String × Span} (valued : given.value? name = some value) (source : SourceId)
    (kind : OriginKind) : Piece.mapped value.1 ⟨source, value.2, kind⟩ = ⟨value.1, some ⟨source, value.2, kind⟩⟩ := by
  obtain ⟨counts, -, trimmed⟩ := Option.bind_eq_some_iff.mp valued
  exact Attribute.mapped_trimmed trimmed source kind

theorem exists_value? (carried : ¬given.Lacks name) : ∃ value, given.value? name = some value := by
  apply Option.ne_none_iff_exists'.mp
  intro absent
  exact carried (value?_eq_none_iff.mp absent)

private theorem complaint?_following {kind : DirectiveKind} (follows : given.Follows kind)
    (other : kind ≠ .inclusion) : given.complaint? =
      (kind.needs.find? fun name => (given.value? name).isNone).map (.missingAttribute kind.keyword) := by
  obtain ⟨rule, known, suits⟩ := follows.find?
  cases suits.same
  rw [complaint?_checked known other, ← missingAttribute?_name suits, Option.map_map, suits.name]
  rfl

inductive Fate where
  | ignored
  | refused (complaint : Complaint)
  | applied (kind : DirectiveKind)
  deriving DecidableEq, Repr, Inhabited

/-- What becomes of a directive, by its name and its attributes. -/
inductive Fares (given : Directive) : Fate → Prop where
  | unknown (unknown : ∀ kind, ¬given.Follows kind) : Fares given .ignored
  | bare (follows : given.Follows .inclusion) : Fares given (.refused .bareInclude)
  | lacking {kind : DirectiveKind} {before after : List String} {name : String} (follows : given.Follows kind)
      (other : kind ≠ .inclusion) (needs : kind.needs = before ++ name :: after)
      (carried : ∀ earlier ∈ before, ¬given.Lacks earlier) (lacks : given.Lacks name) :
      Fares given (.refused (.missingAttribute kind.keyword name))
  | complete {kind : DirectiveKind} (follows : given.Follows kind) (other : kind ≠ .inclusion)
      (carried : ∀ name ∈ kind.needs, ¬given.Lacks name) : Fares given (.applied kind)

def fate (given : Directive) : Fate :=
  match DirectiveRule.find? given.name with
  | none => .ignored
  | some rule =>
    match given.complaint? with
    | some complaint => .refused complaint
    | none => .applied rule.kind

theorem fares_fate (given : Directive) : given.Fares given.fate := by
  cases known : DirectiveRule.find? given.name with
  | none =>
    simp only [fate, known]
    exact .unknown (find?_eq_none_iff.mp known)
  | some rule =>
    have follows := (follows_of_find? known).1
    simp only [fate, known]
    by_cases included : rule.kind = .inclusion
    · rw [complaint?_bare known included]
      exact .bare (included ▸ follows)
    · rw [complaint?_following follows included]
      cases missing : rule.kind.needs.find? fun name => (given.value? name).isNone with
      | none => exact .complete follows included (find?_needs_eq_none_iff.mp missing)
      | some name =>
        obtain ⟨lacks, before, after, needs, carried⟩ := find?_needs_eq_some_iff.mp missing
        exact .lacking follows included needs carried lacks

theorem Fares.fate_eq {decided : Fate} (fares : given.Fares decided) : given.fate = decided := by
  cases fares with
  | unknown unknown => simp only [fate, find?_eq_none_iff.mpr unknown]
  | bare follows =>
    obtain ⟨rule, known, suits⟩ := follows.find?
    simp only [fate, known, complaint?_bare known suits.same]
  | lacking follows other needs carried lacks =>
    obtain ⟨rule, known, -⟩ := follows.find?
    have missing := find?_needs_eq_some_iff.mpr ⟨lacks, _, _, needs, carried⟩
    simp only [fate, known, complaint?_following follows other, missing, Option.map_some]
  | complete follows other carried =>
    obtain ⟨rule, known, suits⟩ := follows.find?
    have missing := find?_needs_eq_none_iff.mpr carried
    simp only [fate, known, complaint?_following follows other, missing, Option.map_none, suits.same]

theorem fate_eq_applied_iff {kind : DirectiveKind} : given.fate = .applied kind ↔
    ∃ rule, DirectiveRule.find? given.name = some rule ∧ rule.kind = kind ∧ given.complaint? = none := by
  unfold fate
  cases DirectiveRule.find? given.name with
  | none => exact iff_of_false nofun nofun
  | some rule =>
    cases given.complaint? with
    | some complaint => exact iff_of_false nofun nofun
    | none =>
      constructor
      · intro applied
        exact ⟨rule, rfl, Fate.applied.inj applied, rfl⟩
      · rintro ⟨other, known, rfl, -⟩
        cases known
        rfl

end Directive

theorem Frame.appendAll_uncounted {kind : SectionKind} (uncounted : kind ≠ .transformation) (frame : Frame)
    (pieces : List Piece) : frame.appendAll kind pieces = frame.setPart kind ((frame.part kind).extend pieces) := by
  induction pieces generalizing frame with
  | nil => cases kind <;> simp [appendAll, part, setPart, Section.extend]
  | cons piece rest ih =>
    have one : frame.append kind piece = frame.setPart kind ((frame.part kind).push piece) := by
      rw [append, recount, if_neg uncounted]
    rw [appendAll, List.foldl_cons, ← appendAll, ih, one]
    cases kind <;> simp [part, setPart, Section.extend, Section.push]

private theorem Frame.markHostRequired_if (frame : Frame) (wanted : Bool) :
    (if wanted = true then frame.markHostRequired else frame) =
      { frame with requiresHost := frame.requiresHost || wanted } := by
  cases wanted with
  | true =>
    rw [if_pos rfl, Bool.or_true]
    rfl
  | false => rw [if_neg Bool.false_ne_true, Bool.or_false]

private theorem Frame.captureBaseClass_eq (frame : Frame) (name : String) (source : SourceId) (span : Span) :
    frame.captureBaseClass name source span = { frame with
      hasBaseClass := true
      baseClass := if frame.hasBaseClass then frame.baseClass else
        frame.baseClass.extend [.mapped name ⟨source, span, .code⟩] } := by
  cases captured : frame.hasBaseClass with
  | true =>
    rw [captureBaseClass, if_pos captured, if_pos rfl, ← captured]
  | false =>
    rw [captureBaseClass, if_neg (Bool.eq_false_iff.mp captured)]
    rfl

namespace Walk

/-- The property of a parameter, whose type and name are traced to where they were written. -/
def declaration (source : SourceId) (typeName name : String × Span) : List Piece :=
  [⟨"        [global::System.CodeDom.Compiler.GeneratedCodeAttribute(\"tea-transpiler\", \"0.1.0\")]\n", none⟩,
   ⟨"        private ", none⟩, ⟨typeName.1, some ⟨source, typeName.2, .code⟩⟩, ⟨" ", none⟩] ++
  (if Code.isKeyword name.1 then [⟨"@", none⟩] else []) ++
  [⟨name.1, some ⟨source, name.2, .code⟩⟩, ⟨" \x7b get; private set; \x7d\n", none⟩]

/-- A walk with the full effect of a directive of the kind, and no other change. Of the template directives
only the first one has an effect, and of the extensions only the first one counts. -/
inductive Applied (walk : Walk) (macros : Macros) (source : SourceId) (given : Directive) :
    DirectiveKind → Walk → Prop where
  | imported {name : String} {span : Span} (named : given.value? "namespace" = some (name, span)) :
      Applied walk macros source given .namespaceImport { walk with current := { walk.current with
        imports := walk.current.imports.extend
          [⟨"using ", none⟩, ⟨name, some ⟨source, span, .code⟩⟩, ⟨";\n", none⟩] } }
  | declared {typeName name : String × Span} (typed : given.value? "type" = some typeName)
      (named : given.value? "name" = some name) :
      Applied walk macros source given .parameter { walk with current := { walk.current with
        parameters := walk.current.parameters.extend (declaration source typeName name)
        parameterList := walk.current.parameterList ++ [⟨typeName.1, name.1⟩] } }
  | referred {name : String} {span : Span} (named : given.value? "name" = some (name, span)) :
      Applied walk macros source given .assembly { walk with
        references := walk.references ++ [⟨macros.expand name, source, span⟩] }
  | extended :
      Applied walk macros source given .output { walk with
        outputExtension? := walk.outputExtension?.or ((given.value? "extension").map Prod.fst) }
  | inherited (first : walk.seenTemplateDirective = false) :
      Applied walk macros source given .template { walk with
        seenTemplateDirective := true
        current := { walk.current with
          requiresHost := walk.current.requiresHost ||
            (given.value? "hostspecific").any fun host => Text.eqIgnoringCase host.1 "true"
          hasBaseClass := walk.current.hasBaseClass || (given.value? "inherits").isSome
          baseClass := if walk.current.hasBaseClass then walk.current.baseClass else
            walk.current.baseClass.extend
              ((given.value? "inherits").toList.map fun base => ⟨base.1, some ⟨source, base.2, .code⟩⟩) } }
  | passed (later : walk.seenTemplateDirective = true) : Applied walk macros source given .template walk

/-- What a walk has become by a directive that came to a fate. -/
def Leaves (walk : Walk) (macros : Macros) (source : SourceId) (given : Directive) (after : Walk) :
    Directive.Fate → Prop
  | .ignored => after = walk
  | .refused .bareInclude => after = { walk with problems := walk.problems ++
      [⟨.unresolvedInclude, source, given.nameSpan, "`include` directive was not expanded"⟩] }
  | .refused (.missingAttribute directiveName attributeName) => after = { walk with problems := walk.problems ++
      [⟨.malformedDirective, source, given.nameSpan,
        "`" ++ directiveName ++ "` directive requires a non-empty `" ++ attributeName ++ "` attribute"⟩] }
  | .refused (.unresolved _) => False
  | .refused (.cyclic _) => False
  | .applied kind => walk.Applied macros source given kind after ∧ after.problems = walk.problems

variable {walk : Walk} {macros : Macros} {source : SourceId} {given : Directive}

private theorem importNamespace_applied (carried : ¬given.Lacks "namespace") :
    walk.Applied macros source given .namespaceImport (walk.importNamespace source given) := by
  obtain ⟨⟨name, span⟩, named⟩ := Directive.exists_value? carried
  have mapped := Directive.mapped_value? named source .code
  simp only [importNamespace, named, mapped,
    Frame.appendAll_uncounted (show SectionKind.imports ≠ .transformation by decide)]
  exact .imported named

private theorem addParameter_applied (typed : ¬given.Lacks "type") (named : ¬given.Lacks "name") :
    walk.Applied macros source given .parameter (walk.addParameter source given) := by
  obtain ⟨typeName, typed⟩ := Directive.exists_value? typed
  obtain ⟨name, named⟩ := Directive.exists_value? named
  have declaration : propertyPieces source typeName name = declaration source typeName name := by
    rw [propertyPieces, Directive.mapped_value? typed, Directive.mapped_value? named]
    rfl
  simp only [addParameter, typed, named, declaration,
    Frame.appendAll_uncounted (show SectionKind.parameters ≠ .transformation by decide)]
  exact .declared typed named

private theorem addReference_applied (carried : ¬given.Lacks "name") :
    walk.Applied macros source given .assembly (walk.addReference macros source given) := by
  obtain ⟨⟨name, span⟩, named⟩ := Directive.exists_value? carried
  rw [addReference, named]
  exact .referred named

private theorem applyOutput_applied : walk.Applied macros source given .output (walk.applyOutput given) := by
  have effect : walk.Applied macros source given .output _ := .extended
  rw [applyOutput]
  cases known : walk.outputExtension? with
  | none =>
    rw [known, Option.none_or] at effect
    exact effect
  | some extension =>
    have same : { walk with outputExtension? := some extension } = walk := by rw [← known]
    rw [known, Option.some_or, same] at effect
    exact effect

theorem applyTemplate_applied :
    walk.Applied macros source given .template (walk.applyTemplate source given) := by
  cases seen : walk.seenTemplateDirective with
  | true =>
    rw [applyTemplate, if_pos seen]
    exact .passed seen
  | false =>
    have effect : walk.Applied macros source given .template _ := .inherited seen
    rw [applyTemplate, seen, if_neg Bool.false_ne_true]
    have mapped (base : String × Span) (inherits : given.value? "inherits" = some base) :=
      Directive.mapped_value? inherits source .code
    generalize given.value? "hostspecific" = host? at effect ⊢
    generalize given.value? "inherits" = base? at effect mapped ⊢
    cases base? with
    | none => cases host? <;> simpa [mapCurrent, Frame.markHostRequired_if, Section.extend] using effect
    | some base =>
      cases host? <;>
        simpa [mapCurrent, Frame.markHostRequired_if, Frame.captureBaseClass_eq, mapped base rfl] using effect

private theorem applyDirective_applied {kind : DirectiveKind} (other : kind ≠ .inclusion)
    (carried : ∀ name ∈ kind.needs, ¬given.Lacks name) :
    walk.Applied macros source given kind (walk.applyDirective macros source given kind) := by
  cases kind with
  | namespaceImport => exact importNamespace_applied (carried _ (List.mem_singleton_self _))
  | template => exact applyTemplate_applied
  | parameter =>
    exact addParameter_applied (carried _ List.mem_cons_self)
      (carried _ (List.mem_cons_of_mem _ (List.mem_singleton_self _)))
  | output => exact applyOutput_applied
  | assembly => exact addReference_applied (carried _ (List.mem_singleton_self _))
  | inclusion => exact absurd rfl other

theorem Leaves.refused {complaint : Complaint} {after : Walk}
    (leaves : walk.Leaves macros source given after (.refused complaint)) :
    ∃ problem, after = { walk with problems := walk.problems ++ [problem] } := by
  cases complaint with
  | bareInclude => exact ⟨_, leaves⟩
  | missingAttribute directiveName attributeName => exact ⟨_, leaves⟩
  | unresolved file => exact leaves.elim
  | cyclic source => exact leaves.elim

theorem visitDirective_leaves {fate : Directive.Fate} (fares : given.Fares fate) :
    walk.Leaves macros source given (walk.visitDirective macros source given) fate := by
  cases fares with
  | unknown unknown => exact visitDirective_unknown (Directive.find?_eq_none_iff.mpr unknown)
  | bare follows =>
    obtain ⟨rule, known, suits⟩ := follows.find?
    exact visitDirective_complaint (Directive.complaint?_bare known suits.same)
  | lacking follows other needs carried lacks =>
    have wrong := Directive.complaint?_following follows other
    rw [Directive.find?_needs_eq_some_iff.mpr ⟨lacks, _, _, needs, carried⟩] at wrong
    exact visitDirective_complaint wrong
  | complete follows other carried =>
    have sound := Directive.complaint?_following follows other
    rw [Directive.find?_needs_eq_none_iff.mpr carried] at sound
    obtain ⟨rule, known, suits⟩ := follows.find?
    cases suits.same
    rw [visitDirective_sound known sound]
    exact ⟨applyDirective_applied other carried, applyDirective_problems _⟩

/-- Whoever sees neither the problems nor an effect that the directive has sees no change. -/
theorem visitDirective_unseen {View : Type} (view : Walk → View)
    (recorded : ∀ problems, view { walk with problems } = view walk)
    (effect : ∀ kind after, given.fate = .applied kind → walk.Applied macros source given kind after →
      view after = view walk) : view (walk.visitDirective macros source given) = view walk := by
  have leaves : walk.Leaves macros source given _ _ := visitDirective_leaves given.fares_fate
  generalize walk.visitDirective macros source given = after at leaves ⊢
  cases decided : given.fate with
  | ignored =>
    rw [decided] at leaves
    rw [leaves]
  | refused complaint =>
    rw [decided] at leaves
    obtain ⟨problem, rfl⟩ := leaves.refused
    exact recorded _
  | applied kind =>
    rw [decided] at leaves
    exact effect kind after decided leaves.1

/-- A directive has one fate, which its name and attributes decide. Unless the value of an attribute that is
trimmed for it would end where no offset is, that fate is what becomes of it at any point of a walk: one that is
no include and carries all that its kind needs has its full effect, and one that lacks some of it leaves one
problem, which names the first. Otherwise the walk ends there with an overflow. -/
theorem directive_fares (session : Session) (walk : Walk) (source : SourceId) (given : Directive)
    (rest : List Node) :
    let flushed := walk.check.flush .fragment
    let after := flushed.visitDirective session.macros source given
    let room := given.fits (flushed.trimmedAttributes given)
    (session.walked source (.directive given :: rest) walk =
      if session.cancelled walk.checks then .error (.aborted (walk.checks + 1))
      else if walk.current.flushes && room then session.walked source rest after
      else .error .overflow) ∧
    (walk.current.flushes = true ↔ ∀ span, walk.current.Holds span → span.IsWord) ∧
    (room = true ↔ ∀ name, flushed.Trims given name → ¬given.Exceeds name) ∧
    (∀ name text span, given.value? name = some (text, span) ↔ given.Carries name text span) ∧
    (∃! fate, given.Fares fate) ∧
    (∀ fate, given.Fares fate → flushed.Leaves session.macros source given after fate) ∧
    ∀ kind, given.Follows kind → kind ≠ .inclusion →
      ((∀ name ∈ kind.needs, ¬given.Lacks name) →
        flushed.Applied session.macros source given kind after ∧ after.problems = flushed.problems) ∧
      ∀ before name behind, kind.needs = before ++ name :: behind →
        (∀ earlier ∈ before, ¬given.Lacks earlier) → given.Lacks name →
        after = { flushed with problems := flushed.problems ++ [⟨.malformedDirective, source, given.nameSpan,
          "`" ++ kind.keyword ++ "` directive requires a non-empty `" ++ name ++ "` attribute"⟩] } := by
  intro flushed after room
  refine ⟨?_, Frame.flushes_iff, fits_trimmed_iff, fun _ _ _ => Directive.value?_eq_some_iff, ⟨given.fate, given.fares_fate, ?_⟩, ?_, ?_⟩
  · have admits : walk.admits (.directive given) = (walk.current.flushes && room) := rfl
    cases go : session.cancelled walk.checks with
    | true => exact Session.walked_cancelled go
    | false =>
      rw [if_neg Bool.false_ne_true, ← admits]
      cases admitted : walk.admits (.directive given) with
      | true => exact Session.walked_directive go admitted
      | false => exact Session.walked_overflow go admitted
  · intro other fares
    exact fares.fate_eq.symm
  · intro fate fares
    exact visitDirective_leaves fares
  · intro kind follows other
    constructor
    · intro carried
      exact visitDirective_leaves (.complete follows other carried)
    · intro before name behind needs carried lacks
      exact visitDirective_leaves (.lacking follows other needs carried lacks)

def farImport : Directive :=
  ⟨"import", ⟨0, 0⟩, [⟨"namespace", " System", ⟨18446744073709551615, 18446744073709551615⟩⟩], ⟨0, 0⟩⟩

/-- It carries what its kind needs, but it is neither ignored nor refused nor applied. -/
theorem far_import_overflows :
    farImport.Fares (.applied .namespaceImport) ∧ (start ⟨"a"⟩).current.flushes = true ∧
      Session.walked ⟨.none, .empty, fun _ => false⟩ ⟨"a"⟩ [.directive farImport] (start ⟨"a"⟩) = .error .overflow := by
  have fares := Directive.fares_fate farImport
  rw [show farImport.fate = .applied .namespaceImport by decide] at fares
  exact ⟨fares, rfl, Session.walked_overflow rfl (by decide)⟩

example : Directive.fate ⟨"PARAMETER", default, [⟨"name", "key", default⟩, ⟨"Type", "\u2003", default⟩,
    ⟨"type", "int", default⟩], default⟩ = .refused (.missingAttribute "parameter" "type") := by decide

end Walk

end TextTemplate
