import TextTemplate.Proofs.ChangedBundles
import TextTemplate.Proofs.RecordedReferences

/-! Where the reports of a program lead. A problem names the template of the node that was visited, not
the root nor the target of an include, and covers the part of the node it is about; a reference covers
the name of its assembly as it is written, before any macro is expanded. -/

namespace TextTemplate
open Text

/-- The part of a node that a problem with it is located at, and what is written there. -/
inductive Node.Blames : Node → Span → String → Prop where
  | name (given : Directive) : Blames (.directive given) given.nameSpan given.name
  | file {inclusion : Inclusion} (named : inclusion.file ≠ "") :
      Blames (.inclusion inclusion) inclusion.fileSpan inclusion.file
  | whole {inclusion : Inclusion} (unnamed : inclusion.file = "") :
      Blames (.inclusion inclusion) inclusion.span (BuildStep.inclusion "").markup

namespace Template

/-- The span lies in a node of the template, and `part` is the text it covers, which is not empty. -/
structure Holds (template : Template) (node : Node) (span : Span) (part : String) : Prop where
  member : node ∈ template.nodes
  start : node.span.start ≤ span.start
  stop : span.stop ≤ node.span.stop
  slice : template.slice? span = some part
  nonempty : part ≠ ""

variable {template : Template} {node : Node}

theorem Faithful.holds_quote (faithful : template.Faithful) (member : node ∈ template.nodes)
    {quote : String × Span} (quoted : quote ∈ node.quotes) (nonempty : quote.1 ≠ "") :
    template.Holds node quote.2 quote.1 := by
  obtain ⟨start, stop⟩ := faithful.inside node member quote quoted
  refine ⟨member, start, stop, ?_, nonempty⟩
  rw [slice?, Span.slice?_of_covers (faithful.covers node member quote quoted), String.ofList_toList]

/-- The value of an attribute, without the blanks around it, is held by the directive. -/
theorem Faithful.holds_value (faithful : template.Faithful) {given : Directive}
    (member : .directive given ∈ template.nodes) {name value : String} {span : Span}
    (found : given.value? name = some (value, span)) : template.Holds (.directive given) span value := by
  obtain ⟨valued, listed, trimmed⟩ := Directive.value?_eq_some found
  have quoted : (valued.value, valued.valueSpan) ∈ (Node.directive given).quotes :=
    List.mem_cons_of_mem _ (List.mem_map_of_mem listed)
  obtain ⟨start, stop⟩ := faithful.inside _ member _ quoted
  have whole := faithful.covers _ member _ quoted
  obtain ⟨nonempty, covers, inside⟩ := Attribute.trimmed?_covers whole trimmed
  dsimp only at start stop nonempty covers inside
  have wide := width_pos nonempty
  have length := covers.stop_eq
  have first := Span.contains_iff.mp (inside span.start (Span.contains_iff.mpr ⟨Nat.le_refl _, by omega⟩))
  have last := Span.contains_iff.mp (inside (span.stop - 1) (Span.contains_iff.mpr ⟨by omega, by omega⟩))
  refine ⟨member, Nat.le_trans start first.1, by omega, ?_, by simpa using nonempty⟩
  rw [slice?, Span.slice?_of_covers covers, String.ofList_toList]

/-- The file of an include is blamed where it is written, and the whole include where it is not. -/
theorem Faithful.blameSpan (faithful : template.Faithful) {inclusion : Inclusion}
    (member : .inclusion inclusion ∈ template.nodes) : inclusion.blameSpan =
      if inclusion.file = "" then inclusion.span else inclusion.fileSpan := by
  have covers := faithful.covers _ member _ (List.mem_singleton_self (inclusion.file, inclusion.fileSpan))
  have stop := covers.stop_eq
  dsimp only at stop
  by_cases unnamed : inclusion.file = ""
  · have empty : inclusion.fileSpan.isEmpty = true := by
      rw [unnamed] at stop
      exact decide_eq_true (Nat.le_of_eq stop)
    rw [Inclusion.blameSpan, if_pos empty, if_pos unnamed]
  · have wide : 0 < width inclusion.file.toList := width_pos (by simpa using unnamed)
    have filled : ¬inclusion.fileSpan.isEmpty = true := by
      rw [Span.isEmpty, decide_eq_true_eq]
      omega
    rw [Inclusion.blameSpan, if_neg filled, if_neg unnamed]

private theorem build_blames {source : SourceId} {steps : List BuildStep} {inclusion : Inclusion}
    (member : .inclusion inclusion ∈ (Template.build source steps).nodes) :
    ∃ part, (Node.inclusion inclusion).Blames inclusion.blameSpan part ∧
      (Template.build source steps).Holds (.inclusion inclusion) inclusion.blameSpan part := by
  have faithful := build_faithful source steps
  rw [faithful.blameSpan member]
  by_cases unnamed : inclusion.file = ""
  · rw [if_pos unnamed]
    obtain ⟨step, start, written, covers⟩ := Template.build_markup member
    have same : step = .inclusion "" := by
      cases step with
      | inclusion file =>
        cases written
        exact congrArg BuildStep.inclusion unnamed
      | text content => cases written
      | directive name attributes => cases written
      | code kind body => cases written
    rw [same] at covers
    refine ⟨_, .whole unnamed, member, Nat.le_refl _, Nat.le_refl _, ?_, by decide⟩
    rw [slice?]
    exact (Span.slice?_of_covers covers).trans (congrArg some String.ofList_toList)
  · rw [if_neg unnamed]
    exact ⟨_, .file unnamed, faithful.holds_quote member (List.mem_singleton_self _) unnamed⟩

end Template

private theorem Directive.name_ne_of_complaint? {given : Directive} {complaint : Complaint}
    (wrong : given.complaint? = some complaint) : given.name ≠ "" := by
  intro unnamed
  obtain ⟨rule, known, -⟩ := Option.bind_eq_some_iff.mp wrong
  have unknown : DirectiveRule.find? "" = none := by decide
  rw [unnamed, unknown] at known
  cases known

private theorem Encounter.problem?_located {bundle : Bundle} (built : bundle.IsBuilt) {encounter : Encounter}
    (found : encounter.Found bundle) {problem : Problem} (records : encounter.problem? = some problem) :
    ∃ node template part, encounter.nodes = [node] ∧ bundle.find? problem.source = some template ∧
      node.Blames problem.span part ∧ template.Holds node problem.span part := by
  obtain ⟨template, home, own⟩ := found
  have known : template ∈ bundle.templates := List.mem_of_find?_eq_some home
  cases encounter with
  | directive source given =>
    obtain ⟨complaint, wrong, rfl⟩ := Option.map_eq_some_iff.mp records
    have listed := own _ (List.mem_singleton_self _)
    exact ⟨_, template, given.name, rfl, home, .name given, (built.faithful known).holds_quote listed
      List.mem_cons_self (Directive.name_ne_of_complaint? wrong)⟩
  | refused source inclusion complaint =>
    cases records
    have listed := own _ (List.mem_singleton_self _)
    obtain ⟨steps, written⟩ := built template known
    rw [written] at listed
    obtain ⟨part, blames, holds⟩ := Template.build_blames listed
    rw [← written] at holds
    exact ⟨_, template, part, rfl, home, blames, holds⟩
  | run source texts => cases records
  | code source depth fragment => cases records
  | expanded source inclusion target => cases records

private theorem Encounter.reference?_located {bundle : Bundle} (built : bundle.IsBuilt)
    {encounter : Encounter} (found : encounter.Found bundle) {macros : Macros} {reference : AssemblyReference}
    (records : encounter.reference? macros = some reference) :
    ∃ template given name, bundle.find? reference.source = some template ∧ given.isAssembly = true ∧
      given.value? "name" = some (name, reference.span) ∧
      template.Holds (.directive given) reference.span name ∧ reference.name = macros.expand name := by
  obtain ⟨given, name, rfl, assembly, named, expanded⟩ := reference?_eq_some records
  obtain ⟨template, home, own⟩ := found
  have known : template ∈ bundle.templates := List.mem_of_find?_eq_some home
  have listed := own _ (List.mem_singleton_self _)
  exact ⟨template, given, name, home, assembly, named,
    (built.faithful known).holds_value listed named, expanded⟩

namespace Bundle
variable {bundle : Bundle} {options : Options} {program : Program}

theorem generate_references (generated : bundle.generate options = .ok program) :
    program.references = (bundle.encounters options).filterMap
      (Encounter.reference? (options.macros.withDefaults bundle.macros)) := by
  cases program_encounters generated
  exact Walk.gatherAll_references _ _

theorem encounters_excerpt {encounter : Encounter} (listed : encounter ∈ bundle.encounters options) :
    encounter.Excerpt bundle := by
  unfold encounters at listed
  split at listed
  next root located =>
    exact Session.encounters_excerpt (session_includes bundle options) (find?_self located)
      (List.suffix_refl _) encounter listed
  next => cases listed

/-- When all templates were built, every problem comes from the visit of a node of the template that it
names, and covers, inside of that node, the name of the directive, the file of the include, or the whole
include when that names no file. Every reference covers the value that an assembly directive of the
template names, without the blanks around it, and has that value with its macros expanded. -/
theorem reports_located (built : bundle.IsBuilt) (generated : bundle.generate options = .ok program) :
    (∀ problem ∈ program.problems, ∃ visit ∈ bundle.encounters options, visit.problem? = some problem ∧
      ∃ node template part, visit.nodes = [node] ∧ bundle.find? problem.source = some template ∧
        node.Blames problem.span part ∧ template.Holds node problem.span part) ∧
    ∀ reference ∈ program.references, ∃ template given name,
      bundle.find? reference.source = some template ∧ given.isAssembly = true ∧
      given.value? "name" = some (name, reference.span) ∧
      template.Holds (.directive given) reference.span name ∧
      reference.name = (options.macros.withDefaults bundle.macros).expand name := by
  rw [generate_problems generated, generate_references generated]
  constructor
  · intro problem member
    obtain ⟨visit, listed, records⟩ := List.mem_filterMap.mp member
    exact ⟨visit, listed, records, Encounter.problem?_located built (encounters_excerpt listed).found records⟩
  · intro reference member
    obtain ⟨visit, listed, records⟩ := List.mem_filterMap.mp member
    exact Encounter.reference?_located built (encounters_excerpt listed).found records

def reportedRoot : Template := .build ⟨"a"⟩ [.inclusion "b"]

def reportedTarget : Template := .build ⟨"b"⟩
  [.text "日", .inclusion "", .directive "Import" [], .directive "assembly" [("name", " $(M)é ")], .inclusion "a"]

def reported : Bundle := ⟨⟨"a"⟩, [reportedRoot, reportedTarget], .ofList [("M", "x")]⟩

private theorem reported_built : reported.IsBuilt := by
  intro template member
  simp only [reported, List.mem_cons, List.not_mem_nil, or_false] at member
  rcases member with rfl | rfl
  · exact ⟨_, rfl⟩
  · exact ⟨_, rfl⟩

private theorem reported_encounters : reported.encounters {} =
    [.expanded ⟨"a"⟩ ⟨"b", ⟨18, 19⟩, ⟨0, 23⟩⟩ ⟨"b"⟩, .run ⟨"b"⟩ [⟨"日", ⟨0, 3⟩⟩],
     .refused ⟨"b"⟩ ⟨"", ⟨21, 21⟩, ⟨3, 25⟩⟩ (.unresolved ""),
     .directive ⟨"b"⟩ ⟨"Import", ⟨29, 35⟩, [], ⟨25, 38⟩⟩,
     .directive ⟨"b"⟩ ⟨"assembly", ⟨42, 50⟩, [⟨"name", " $(M)é ", ⟨57, 65⟩⟩], ⟨38, 69⟩⟩,
     .refused ⟨"b"⟩ ⟨"a", ⟨87, 88⟩, ⟨69, 92⟩⟩ (.cyclic ⟨"a"⟩)] := by
  have located : reported.find? reported.root = some reportedRoot := by decide
  have outer : reportedRoot.nodes = [.inclusion ⟨"b", ⟨18, 19⟩, ⟨0, 23⟩⟩] := by decide
  have inner : reportedTarget.nodes = [.text ⟨"日", ⟨0, 3⟩⟩, .inclusion ⟨"", ⟨21, 21⟩, ⟨3, 25⟩⟩,
      .directive ⟨"Import", ⟨29, 35⟩, [], ⟨25, 38⟩⟩,
      .directive ⟨"assembly", ⟨42, 50⟩, [⟨"name", " $(M)é ", ⟨57, 65⟩⟩], ⟨38, 69⟩⟩,
      .inclusion ⟨"a", ⟨87, 88⟩, ⟨69, 92⟩⟩] := by
    decide
  have enters : (reported.session {}).expansion ⟨[reportedRoot.source]⟩ reportedRoot.source
      ⟨"b", ⟨18, 19⟩, ⟨0, 23⟩⟩ = .expand reportedTarget ⟨[⟨"b"⟩, ⟨"a"⟩]⟩ :=
    session_expand (by decide +kernel) (by decide) rfl
  have nowhere : (reported.session {}).expansion ⟨[⟨"b"⟩, ⟨"a"⟩]⟩ reportedTarget.source
      ⟨"", ⟨21, 21⟩, ⟨3, 25⟩⟩ = .unresolved :=
    session_unresolved (by decide +kernel) _
  have returns : (reported.session {}).expansion ⟨[⟨"b"⟩, ⟨"a"⟩]⟩ reportedTarget.source
      ⟨"a", ⟨87, 88⟩, ⟨69, 92⟩⟩ = .cyclic reportedRoot :=
    session_cyclic (by decide +kernel) (List.mem_cons_of_mem _ List.mem_cons_self)
  have nested : (reported.session {}).encounters ⟨[⟨"b"⟩, ⟨"a"⟩]⟩ 1 reportedTarget.source [] reportedTarget.nodes =
      [.run ⟨"b"⟩ [⟨"日", ⟨0, 3⟩⟩], .refused ⟨"b"⟩ ⟨"", ⟨21, 21⟩, ⟨3, 25⟩⟩ (.unresolved ""),
       .directive ⟨"b"⟩ ⟨"Import", ⟨29, 35⟩, [], ⟨25, 38⟩⟩,
       .directive ⟨"b"⟩ ⟨"assembly", ⟨42, 50⟩, [⟨"name", " $(M)é ", ⟨57, 65⟩⟩], ⟨38, 69⟩⟩,
       .refused ⟨"b"⟩ ⟨"a", ⟨87, 88⟩, ⟨69, 92⟩⟩ (.cyclic ⟨"a"⟩)] := by
    rw [inner, Session.encounters, Session.encounters_unresolved _ _ _ nowhere, Session.encounters,
      Session.encounters, Session.encounters_cyclic _ _ _ returns, Session.encounters]
    rfl
  rw [encounters, located]
  dsimp only [Session.encountersOf]
  rw [outer, Session.encounters_expand _ _ _ enters, Session.encounters]
  exact congrArg (_ :: · ++ []) nested

theorem reports_located_nested : ∃ program, reported.generate {} = .ok program ∧
    program.problems =
      [⟨.unresolvedInclude, ⟨"b"⟩, ⟨3, 25⟩, "cannot resolve include ``"⟩,
       ⟨.malformedDirective, ⟨"b"⟩, ⟨29, 35⟩, "`import` directive requires a non-empty `namespace` attribute"⟩,
       ⟨.cyclicInclude, ⟨"b"⟩, ⟨87, 88⟩, "`a` is already being expanded"⟩] ∧
    program.references = [⟨"xé", ⟨"b"⟩, ⟨58, 64⟩⟩] ∧
    (∀ problem ∈ program.problems, ∃ node template part, reported.find? problem.source = some template ∧
      node.Blames problem.span part ∧ template.Holds node problem.span part) ∧
    ∀ reference ∈ program.references, ∃ template given name,
      reported.find? reference.source = some template ∧
      template.Holds (.directive given) reference.span name ∧
      reference.name = (Macros.withDefaults .empty reported.macros).expand name := by
  have located : reported.find? reported.root = some reportedRoot := by decide
  have generated := generate_of_root located (by decide) {}
  obtain ⟨problems, references⟩ := reports_located reported_built generated
  refine ⟨_, generated, ?_, ?_, fun problem member => ?_, fun reference member => ?_⟩
  · rw [generate_problems generated, reported_encounters]
    decide
  · rw [generate_references generated, reported_encounters]
    decide +kernel
  · obtain ⟨-, -, -, node, template, part, -, found, blames, holds⟩ := problems problem member
    exact ⟨node, template, part, found, blames, holds⟩
  · obtain ⟨template, given, name, found, -, -, holds, named⟩ := references reference member
    exact ⟨template, given, name, found, holds, named⟩

end Bundle

end TextTemplate
