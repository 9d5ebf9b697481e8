import TextTemplate.Proofs.SingleFrame

/-! The problems of a program, encounter by encounter. An encounter records one problem or none, and
which it is depends on the encounter alone, whatever the walk has seen before; one that records a
problem does nothing else. So the problems can be read off the encounters in their order. -/

namespace TextTemplate

/-- What is wrong with a directive: it is an include, or lacks an attribute it must have. -/
def Directive.complaint? (given : Directive) : Option Complaint :=
  (DirectiveRule.find? given.name).bind fun rule =>
    if rule.kind = .inclusion then
      some .bareInclude
    else
      (Walk.missingAttribute? rule given).map fun missing =>
        .missingAttribute rule.name missing.name

namespace Directive
variable {given : Directive} {rule : DirectiveRule}

theorem complaint?_bare (known : DirectiveRule.find? given.name = some rule)
    (included : rule.kind = .inclusion) : given.complaint? = some .bareInclude := by
  rw [complaint?, known, Option.bind_some, if_pos included]

theorem complaint?_checked (known : DirectiveRule.find? given.name = some rule) (other : rule.kind ≠ .inclusion) :
    given.complaint? = (Walk.missingAttribute? rule given).map fun missing =>
      .missingAttribute rule.name missing.name := by
  rw [complaint?, known, Option.bind_some, if_neg other]

end Directive

def Encounter.problem? : Encounter → Option Problem
  | .directive source given =>
    given.complaint?.map fun complaint => complaint.problem source given.nameSpan
  | .refused source inclusion complaint => some (complaint.problem source inclusion.blameSpan)
  | _ => none

namespace Walk
variable {walk : Walk} {macros : Macros} {source : SourceId} {given : Directive}

theorem visitDirective_complaint {complaint : Complaint} (wrong : given.complaint? = some complaint) :
    walk.visitDirective macros source given = walk.complain complaint source given.nameSpan := by
  obtain ⟨rule, known, raised⟩ := Option.bind_eq_some_iff.mp wrong
  unfold visitDirective
  rw [known]
  dsimp only
  split at raised
  next included =>
    rw [if_pos included]
    cases raised
    rfl
  next other =>
    obtain ⟨missing, absent, rfl⟩ := Option.map_eq_some_iff.mp raised
    rw [if_neg other, absent]

theorem visitDirective_unknown (unknown : DirectiveRule.find? given.name = none) :
    walk.visitDirective macros source given = walk := by
  unfold visitDirective
  rw [unknown]

theorem visitDirective_sound {rule : DirectiveRule} (known : DirectiveRule.find? given.name = some rule)
    (sound : given.complaint? = none) :
    walk.visitDirective macros source given = walk.applyDirective macros source given rule.kind := by
  rw [Directive.complaint?, known, Option.bind_some] at sound
  unfold visitDirective
  rw [known]
  dsimp only
  split at sound
  next => cases sound
  next other => rw [if_neg other, Option.map_eq_none_iff.mp sound]

theorem applyDirective_problems (kind : DirectiveKind) :
    (walk.applyDirective macros source given kind).problems = walk.problems := by
  cases kind
  case template =>
    simp only [applyDirective, applyTemplate]
    split <;> rfl
  case parameter =>
    simp only [applyDirective, addParameter]
    split <;> rfl
  case output =>
    simp only [applyDirective, applyOutput]
    split <;> rfl
  case assembly =>
    simp only [applyDirective, addReference]
    split <;> rfl
  case namespaceImport =>
    simp only [applyDirective, importNamespace]
    split <;> rfl
  case inclusion => rfl

theorem gather_problem {encounter : Encounter} {problem : Problem} (records : encounter.problem? = some problem) :
    walk.gather macros encounter = { walk.check with problems := walk.problems ++ [problem] } := by
  cases encounter with
  | directive source given =>
    obtain ⟨complaint, wrong, rfl⟩ := Option.map_eq_some_iff.mp records
    rw [gather, visitDirective_complaint wrong]
    rfl
  | refused source inclusion complaint =>
    cases records
    rfl
  | run source texts => cases records
  | code source depth fragment => cases records
  | expanded source inclusion target => cases records

private theorem gather_problems (encounter : Encounter) :
    (walk.gather macros encounter).problems = walk.problems ++ encounter.problem?.toList := by
  cases recorded : encounter.problem? with
  | some problem =>
    rw [gather_problem recorded]
    rfl
  | none =>
    rw [Option.toList_none, List.append_nil]
    cases encounter with
    | run source texts => rfl
    | refused source inclusion complaint => cases recorded
    | expanded source inclusion target => rfl
    | code source depth fragment =>
      rw [gather_code]
      exact List.append_nil _
    | directive source given =>
      have sound := Option.map_eq_none_iff.mp recorded
      cases known : DirectiveRule.find? given.name with
      | none => rw [gather, visitDirective_unknown known]; rfl
      | some rule =>
        rw [gather, visitDirective_sound known sound]
        exact applyDirective_problems rule.kind

/-- When each encounter leads from what holds of a list to what holds of the list with its own entry, if it
has one, all of them together lead to their entries in their order. -/
theorem gatherAll_notes {Entry : Type} {noted? : Encounter → Option Entry} {holds : List Entry → Walk → Prop}
    (step : ∀ entries walk encounter, holds entries walk →
      holds (entries ++ (noted? encounter).toList) (gather macros walk encounter))
    (encounters : List Encounter) {entries : List Entry} {walk : Walk} (begun : holds entries walk) :
    holds (entries ++ encounters.filterMap noted?) (encounters.foldl (gather macros) walk) := by
  induction encounters generalizing entries walk with
  | nil => exact (List.append_nil entries).symm ▸ begun
  | cons encounter rest ih =>
    have later := ih (step entries walk encounter begun)
    rw [List.append_assoc] at later
    cases added : noted? encounter with
    | none =>
      rw [added] at later
      rw [List.filterMap_cons_none added]
      exact later
    | some entry =>
      rw [added] at later
      rw [List.filterMap_cons_some added]
      exact later

/-- What each encounter adds to a list of the walk at most once, all of them add in their order. -/
theorem gatherAll_appends {Entry : Type} {recorded : Walk → List Entry} {noted? : Encounter → Option Entry}
    (appends : ∀ walk encounter,
      recorded (Walk.gather macros walk encounter) = recorded walk ++ (noted? encounter).toList)
    (encounters : List Encounter) (walk : Walk) :
    recorded (encounters.foldl (gather macros) walk) = recorded walk ++ encounters.filterMap noted? := by
  have step : ∀ entries reached encounter, recorded reached = recorded walk ++ entries →
      recorded (Walk.gather macros reached encounter) =
        recorded walk ++ (entries ++ (noted? encounter).toList) := by
    intro entries reached encounter same
    rw [appends, same, List.append_assoc]
  exact gatherAll_notes step encounters (List.append_nil _).symm

theorem gatherAll_problems (encounters : List Encounter) (walk : Walk) :
    (encounters.foldl (gather macros) walk).problems =
      walk.problems ++ encounters.filterMap Encounter.problem? :=
  gatherAll_appends (fun _ encounter => gather_problems encounter) encounters walk

end Walk

end TextTemplate
