import TextTemplate.Proofs.DirectiveFates

/-! The references of a program, encounter by encounter. A directive records the assembly it names or
nothing, and which it is depends on the directive alone; only the name is up to the macros. -/

namespace TextTemplate

namespace Directive
variable {given : Directive}

def isAssembly (given : Directive) : Bool :=
  (DirectiveRule.find? given.name).any fun rule => rule.kind = .assembly

/-- The assembly that a directive names, as it is written there, and the place where it is written. -/
def assembly? (given : Directive) : Option (String × Span) :=
  if given.isAssembly then given.value? "name" else none

theorem isAssembly_iff : given.isAssembly = true ↔
    ∃ rule, DirectiveRule.find? given.name = some rule ∧ rule.kind = .assembly := by
  simp only [isAssembly, Option.any_eq_true, decide_eq_true_eq]

private theorem assembly?_applied (applied : given.fate = .applied .assembly) :
    given.assembly? = given.value? "name" := by
  obtain ⟨rule, known, kind, -⟩ := fate_eq_applied_iff.mp applied
  exact if_pos (isAssembly_iff.mpr ⟨rule, known, kind⟩)

private theorem assembly?_otherwise (other : given.fate ≠ .applied .assembly) : given.assembly? = none := by
  unfold assembly?
  split
  next assembly =>
    obtain ⟨rule, known, kind⟩ := isAssembly_iff.mp assembly
    by_contra named
    apply other
    have follows := (follows_of_find? known).1
    rw [kind] at follows
    apply Fares.fate_eq
    apply Fares.complete follows DirectiveKind.noConfusion
    intro name needed
    rw [List.mem_singleton.mp needed, ← value?_eq_none_iff]
    exact named
  next => rfl

end Directive

def Encounter.reference? (macros : Macros) : Encounter → Option AssemblyReference
  | .directive source given =>
    given.assembly?.map fun assembly => ⟨macros.expand assembly.1, source, assembly.2⟩
  | _ => none

theorem Encounter.reference?_eq_some {encounter : Encounter} {macros : Macros} {reference : AssemblyReference}
    (records : encounter.reference? macros = some reference) :
    ∃ given name, encounter = .directive reference.source given ∧ given.isAssembly = true ∧
      given.value? "name" = some (name, reference.span) ∧ reference.name = macros.expand name := by
  cases encounter with
  | directive source given =>
    obtain ⟨⟨name, span⟩, named, rfl⟩ := Option.map_eq_some_iff.mp records
    unfold Directive.assembly? at named
    split at named
    next assembly => exact ⟨given, name, rfl, assembly, named, rfl⟩
    next => cases named
  | refused source inclusion complaint => cases records
  | run source texts => cases records
  | code source depth fragment => cases records
  | expanded source inclusion target => cases records

namespace Walk
variable {walk : Walk} {macros : Macros} {source : SourceId} {given : Directive}

private theorem visitDirective_references : (walk.visitDirective macros source given).references =
    walk.references ++ ((Encounter.directive source given).reference? macros).toList := by
  by_cases assembly : given.fate = .applied .assembly
  · have leaves : walk.Leaves macros source given _ _ := visitDirective_leaves given.fares_fate
    generalize walk.visitDirective macros source given = after at leaves ⊢
    rw [assembly] at leaves
    cases leaves.1 with
    | referred named =>
      rw [Encounter.reference?, Directive.assembly?_applied assembly, named]
      rfl
  · rw [Encounter.reference?, Directive.assembly?_otherwise assembly, Option.map_none, Option.toList_none,
      List.append_nil]
    apply visitDirective_unseen Walk.references
    · exact fun _ => rfl
    · intro kind after decided effect
      cases effect with
      | referred named => exact absurd decided assembly
      | _ => rfl

private theorem gather_references (encounter : Encounter) : (walk.gather macros encounter).references =
    walk.references ++ (encounter.reference? macros).toList := by
  cases encounter with
  | directive source given => exact visitDirective_references
  | code source depth fragment =>
    rw [gather_code]
    rfl
  | run source texts => exact (List.append_nil _).symm
  | refused source inclusion complaint => exact (List.append_nil _).symm
  | expanded source inclusion target => exact (List.append_nil _).symm

theorem gatherAll_references (encounters : List Encounter) (walk : Walk) :
    (encounters.foldl (gather macros) walk).references =
      walk.references ++ encounters.filterMap (Encounter.reference? macros) :=
  gatherAll_appends (fun _ encounter => gather_references encounter) encounters walk

end Walk

end TextTemplate
