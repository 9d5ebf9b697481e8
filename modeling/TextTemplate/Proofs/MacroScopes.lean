import TextTemplate.Proofs.SelfIncludes

/-! Where macros count. The values of the bundle lead its includes, and the values of the options, with
those of the bundle behind them, are put into the names of assemblies and into nothing else. So whatever the
options say, the same nodes are visited, and the programs differ in the names of their references at most. -/

namespace TextTemplate

namespace Macros

private theorem find?_insertEntry (name value sought : String) (entries : List (String × String)) :
    ((insertEntry name value entries).find? fun entry => entry.1 = sought).map Prod.snd =
      if name = sought then some value else (entries.find? fun entry => entry.1 = sought).map Prod.snd := by
  induction entries with
  | nil => by_cases same : name = sought <;> simp [insertEntry, same]
  | cons entry rest ih =>
    rw [insertEntry]
    split
    next => by_cases same : name = sought <;> simp [same]
    next =>
      split
      next replaced => by_cases same : name = sought <;> simp [← replaced, same]
      next other =>
        rw [List.find?_cons, List.find?_cons]
        by_cases here : entry.1 = sought
        · have apart : name ≠ sought := fun same => other (same.trans here.symm)
          simp [here, apart]
        · simp only [here, decide_false, ih]

private theorem find?_insert (macros : Macros) (name value sought : String) :
    (macros.insert name value).find? sought = if name = sought then some value else macros.find? sought :=
  find?_insertEntry name value sought macros.entries

/-- A table with defaults knows what either knows, and its own values count. -/
theorem find?_withDefaults (macros other : Macros) (name : String) :
    (macros.withDefaults other).find? name = (macros.find? name).or (other.find? name) := by
  rw [withDefaults]
  conv_rhs => rw [find?.eq_def other]
  generalize other.entries = entries
  induction entries generalizing macros with
  | nil => simp
  | cons entry rest ih =>
    rw [List.foldl_cons, ih, List.find?_cons]
    split
    next known =>
      by_cases same : entry.1 = name
      · subst same
        obtain ⟨value, found⟩ := Option.isSome_iff_exists.mp known
        simp [found]
      · simp [same]
    next unknown =>
      rw [find?_insert]
      by_cases same : entry.1 = name
      · subst same
        simp [Option.not_isSome_iff_eq_none.mp unknown]
      · simp [same]

end Macros

def AssemblyReference.expanded (macros : Macros) (written : AssemblyReference) : AssemblyReference :=
  { written with name := macros.expand written.name }

/-- The reference a directive makes, named as it is written there but for the blanks around it. -/
def Encounter.assembly? : Encounter → Option AssemblyReference
  | .directive source given => given.assembly?.map fun assembly => ⟨assembly.1, source, assembly.2⟩
  | _ => none

theorem Encounter.filterMap_reference? (macros : Macros) (encounters : List Encounter) :
    encounters.filterMap (reference? macros) = (encounters.filterMap assembly?).map (·.expanded macros) := by
  have expands (encounter : Encounter) :
      encounter.reference? macros = encounter.assembly?.map (·.expanded macros) := by
    cases encounter with
    | directive source given =>
      rw [reference?, assembly?, Option.map_map]
      rfl
    | run source texts => rfl
    | code source depth fragment => rfl
    | refused source inclusion complaint => rfl
    | expanded source inclusion target => rfl
  rw [List.map_filterMap]
  exact congrArg (encounters.filterMap ·) (funext expands)

namespace Session

/-- What is come upon is decided by where includes lead. -/
theorem encounters_includes {session other : Session} (same : other.includes = session.includes)
    (sources : OpenSources) (depth : Nat) (source : SourceId) (held : List LiteralText) (nodes : List Node) :
    other.encounters sources depth source held nodes = session.encounters sources depth source held nodes := by
  have decides (sources : OpenSources) (source : SourceId) (inclusion : Inclusion) :
      other.expansion sources source inclusion = session.expansion sources source inclusion := by
    rw [expansion, expansion, same]
  induction sources, depth, source, held, nodes using encounters.induct session with
  | case1 sources depth source held => rw [encounters, encounters]
  | case2 sources depth source held literal rest ih => rw [encounters, encounters, ih]
  | case3 sources depth source held given rest ih => rw [encounters, encounters, ih]
  | case4 sources depth source held fragment rest ih => rw [encounters, encounters, ih]
  | case5 sources depth source held inclusion rest ih inner =>
    have decided := decides sources source inclusion
    cases here : session.expansion sources source inclusion with
    | unresolved =>
      rw [encounters_unresolved _ _ _ here, encounters_unresolved _ _ _ (decided.trans here), ih]
    | cyclic target => rw [encounters_cyclic _ _ _ here, encounters_cyclic _ _ _ (decided.trans here), ih]
    | expand target opened =>
      rw [encounters_expand _ _ _ here, encounters_expand _ _ _ (decided.trans here), ih,
        inner target opened here]

end Session

namespace Walk

def Agrees (first second : Walk) : Prop :=
  second = { first with references := second.references }

private theorem applyDirective_agrees (walk : Walk) (references : List AssemblyReference) (macros others : Macros)
    (source : SourceId) (given : Directive) (kind : DirectiveKind) :
    (walk.applyDirective macros source given kind).Agrees
      ({ walk with references }.applyDirective others source given kind) := by
  cases kind with
  | namespaceImport =>
    simp only [applyDirective, importNamespace]
    split <;> rfl
  | template =>
    simp only [applyDirective, applyTemplate]
    split <;> rfl
  | parameter =>
    simp only [applyDirective, addParameter]
    split <;> rfl
  | output =>
    simp only [applyDirective, applyOutput]
    split <;> rfl
  | assembly =>
    simp only [applyDirective, addReference]
    split <;> rfl
  | inclusion => rfl

namespace Agrees
variable {first second : Walk}

theorem refl (walk : Walk) : walk.Agrees walk := rfl

theorem gather (agrees : first.Agrees second) (macros others : Macros) (encounter : Encounter) :
    (first.gather macros encounter).Agrees (second.gather others encounter) := by
  rw [agrees]
  generalize second.references = references
  cases encounter with
  | directive source given =>
    simp only [Walk.gather, visitDirective]
    split
    · rfl
    · split
      · rfl
      · split
        · rfl
        · exact applyDirective_agrees first.check references macros others source given _
  | code source depth fragment =>
    simp only [Walk.gather, visitCode]
    split
    · rfl
    · cases fragment.kind <;> rfl
  | run source texts => rfl
  | refused source inclusion complaint => rfl
  | expanded source inclusion target => rfl

private theorem affordsAll (agrees : first.Agrees second) (macros others : Macros) (encounters : List Encounter) :
    second.affordsAll others encounters = first.affordsAll macros encounters := by
  induction encounters generalizing first second with
  | nil => rfl
  | cons encounter rest ih =>
    have same : second.affords encounter = first.affords encounter := by
      rw [agrees]
      exact Alike.affords ⟨rfl, rfl, rfl⟩ encounter
    rw [Walk.affordsAll, Walk.affordsAll, same, ih (agrees.gather macros others encounter)]

private theorem gatherAll (agrees : first.Agrees second) (macros others : Macros) (encounters : List Encounter) :
    (encounters.foldl (Walk.gather macros) first).Agrees (encounters.foldl (Walk.gather others) second) := by
  induction encounters generalizing first second with
  | nil => exact agrees
  | cons encounter rest ih => exact ih (agrees.gather macros others encounter)

/-- Laid out with the same names, what the walks come to differs in the references at most. -/
theorem assemble (agrees : first.Agrees second) (options : Options) (macros others : Macros) :
    Program.assemble
        ⟨second.current, second.problems, second.references, second.outputExtension?, second.checks⟩
        { options with macros := others } =
      { Program.assemble
          ⟨first.current, first.problems, first.references, first.outputExtension?, first.checks⟩
          { options with macros } with references := second.references } := by
  rw [agrees]
  rfl

end Agrees

end Walk

namespace Bundle
variable {bundle : Bundle} {options : Options}

def assemblies (bundle : Bundle) (options : Options) : List AssemblyReference :=
  (bundle.encounters options).filterMap Encounter.assembly?

theorem encounters_macros (bundle : Bundle) (options : Options) (macros : Macros) :
    bundle.encounters { options with macros } = bundle.encounters options := by
  have same : (bundle.session { options with macros }).includes = (bundle.session options).includes := rfl
  unfold encounters
  split
  next root located => exact Session.encounters_includes same ..
  next => rfl

/-- A template is expanded where the bundle's own macros lead the include. -/
theorem target_of_expanded {source target : SourceId} {inclusion : Inclusion}
    (listed : .expanded source inclusion target ∈ bundle.encounters options) :
    target = ⟨SourcePath.resolve source.path (bundle.macros.expand (.ofList (Text.trim inclusion.file.toList)))⟩ := by
  unfold encounters at listed
  split at listed
  next root located =>
    obtain ⟨sources, -, visited⟩ := Session.exists_expansion List.mem_cons_self listed rfl
    cases decided : (bundle.session options).expansion sources source inclusion with
    | unresolved => cases visited.trans (congrArg _ decided)
    | cyclic found => cases visited.trans (congrArg _ decided)
    | expand found opened =>
      cases visited.trans (congrArg _ decided)
      obtain ⟨aim, aimed, there⟩ := Option.bind_eq_some_iff.mp (Session.expansion_eq_expand decided).1
      have named : found.source = aim := by simpa using List.find?_some there
      unfold target? at aimed
      dsimp only at aimed
      split at aimed
      next => cases aimed
      next =>
        rw [named]
        exact (Option.some.inj aimed).symm
  next => cases listed

private theorem fits_macros (bundle : Bundle) (options : Options) (macros : Macros) :
    bundle.fits { options with macros } = bundle.fits options := by
  rw [fits_encounters, fits_encounters, encounters_macros]
  exact (Walk.Agrees.refl _).affordsAll _ _ _

private theorem gathered_assemblies (bundle : Bundle) (options : Options) (macros : Macros) :
    ((bundle.encounters options).foldl (Walk.gather macros) (.start bundle.root)).references =
      (bundle.assemblies options).map (·.expanded macros) := by
  rw [Walk.gatherAll_references, Encounter.filterMap_reference?]
  rfl

private theorem generate_assemblies {program : Program} (generated : bundle.generate options = .ok program) :
    program.references =
      (bundle.assemblies options).map (·.expanded (options.macros.withDefaults bundle.macros)) := by
  rw [generate_references generated, Encounter.filterMap_reference?, assemblies]

private theorem generate_with_macros (bundle : Bundle) (options : Options) (macros : Macros) :
    bundle.generate { options with macros } = (bundle.generate options).map fun program =>
      { program with
        references := (bundle.assemblies options).map (·.expanded (macros.withDefaults bundle.macros)) } := by
  cases located : bundle.find? bundle.root with
  | none =>
    simp only [generate, rootTemplate, located]
    rfl
  | some root =>
    have again := generate_encounters located { options with macros }
    rw [encounters_macros] at again
    have agrees := (Walk.Agrees.refl (Walk.start bundle.root)).gatherAll
      (options.macros.withDefaults bundle.macros) (macros.withDefaults bundle.macros) (bundle.encounters options)
    have written := bundle.gathered_assemblies options (macros.withDefaults bundle.macros)
    rw [again, generate_encounters located options, fits_macros,
      agrees.assemble options (options.macros.withDefaults bundle.macros), written]
    cases bundle.fits options <;> rfl

private theorem mem_assemblies {written : AssemblyReference} (listed : written ∈ bundle.assemblies options) :
    ∃ given, .directive written.source given ∈ bundle.encounters options ∧ given.isAssembly = true ∧
      given.value? "name" = some (written.name, written.span) := by
  obtain ⟨visit, visited, refers⟩ := List.mem_filterMap.mp listed
  cases visit with
  | directive source given =>
    obtain ⟨⟨name, span⟩, named, rfl⟩ := Option.map_eq_some_iff.mp refers
    unfold Directive.assembly? at named
    split at named
    next assembly => exact ⟨given, visited, assembly, named⟩
    next => cases named
  | run source texts => cases refers
  | code source depth fragment => cases refers
  | refused source inclusion complaint => cases refers
  | expanded source inclusion target => cases refers

/-- Macros of the options are put into the names of references, where they hide those of the bundle, and count
nowhere else: with other macros the same is come upon, and the program differs in these names at most. Where an
include leads is up to the macros of the bundle. -/
theorem option_macros_scoped (bundle : Bundle) (options : Options) (macros : Macros) :
    let other : Options := { options with macros }
    bundle.encounters other = bundle.encounters options ∧
    (∀ source inclusion target, .expanded source inclusion target ∈ bundle.encounters options →
      target =
        ⟨SourcePath.resolve source.path (bundle.macros.expand (.ofList (Text.trim inclusion.file.toList)))⟩) ∧
    (∀ (given : Macros) (name : String),
      (given.withDefaults bundle.macros).find? name = (given.find? name).or (bundle.macros.find? name)) ∧
    (∀ problem, bundle.generate options = .error problem → bundle.generate other = .error problem) ∧
    ∀ program, bundle.generate options = .ok program → ∃ again, bundle.generate other = .ok again ∧
      again.code = program.code ∧ again.table = program.table ∧ again.problems = program.problems ∧
      again.outputExtension? = program.outputExtension? ∧
      List.Forall₂ (fun reference renamed => ∃ given written,
          .directive reference.source given ∈ bundle.encounters options ∧ given.isAssembly = true ∧
          given.value? "name" = some (written, reference.span) ∧
          reference.name = (options.macros.withDefaults bundle.macros).expand written ∧
          renamed = { reference with name := (macros.withDefaults bundle.macros).expand written })
        program.references again.references := by
  intro other
  have generates := bundle.generate_with_macros options macros
  refine ⟨bundle.encounters_macros options macros, fun _ _ _ => target_of_expanded,
    fun given name => given.find?_withDefaults bundle.macros name, ?_, ?_⟩
  · intro problem failed
    rw [failed] at generates
    exact generates
  · intro program generated
    have references := generate_assemblies generated
    rw [generated] at generates
    refine ⟨_, generates, rfl, rfl, rfl, rfl, ?_⟩
    rw [references, List.forall₂_map_left_iff, List.forall₂_map_right_iff]
    apply List.forall₂_same.mpr
    intro written listed
    obtain ⟨given, visited, assembly, named⟩ := mem_assemblies listed
    exact ⟨given, written.name, visited, assembly, named, rfl, rfl⟩

def linkedRoot : Template :=
  .build ⟨"a"⟩ [.inclusion "$(Part)", .directive "assembly" [("name", " $(Part).dll ")]]

def linkedTarget : Template := .build ⟨"b"⟩ [.directive "assembly" [("name", "$(Lib)")]]

def linkedOther : Template := .build ⟨"c"⟩ [.text "c"]

def linked : Bundle := ⟨⟨"a"⟩, [linkedRoot, linkedTarget, linkedOther], .ofList [("Part", "b")]⟩

private theorem linked_encounters : linked.encounters {} =
    [.expanded ⟨"a"⟩ ⟨"$(Part)", ⟨18, 25⟩, ⟨0, 29⟩⟩ ⟨"b"⟩,
     .directive ⟨"b"⟩ ⟨"assembly", ⟨4, 12⟩, [⟨"name", "$(Lib)", ⟨19, 25⟩⟩], ⟨0, 29⟩⟩,
     .directive ⟨"a"⟩ ⟨"assembly", ⟨33, 41⟩, [⟨"name", " $(Part).dll ", ⟨48, 61⟩⟩], ⟨29, 65⟩⟩] := by
  have located : linked.find? linked.root = some linkedRoot := by decide
  have outer : linkedRoot.nodes = [.inclusion ⟨"$(Part)", ⟨18, 25⟩, ⟨0, 29⟩⟩,
      .directive ⟨"assembly", ⟨33, 41⟩, [⟨"name", " $(Part).dll ", ⟨48, 61⟩⟩], ⟨29, 65⟩⟩] := by
    decide
  have inner : linkedTarget.nodes =
      [.directive ⟨"assembly", ⟨4, 12⟩, [⟨"name", "$(Lib)", ⟨19, 25⟩⟩], ⟨0, 29⟩⟩] := by
    decide
  have enters : (linked.session {}).expansion ⟨[linkedRoot.source]⟩ linkedRoot.source
      ⟨"$(Part)", ⟨18, 25⟩, ⟨0, 29⟩⟩ = .expand linkedTarget ⟨[⟨"b"⟩, ⟨"a"⟩]⟩ :=
    session_expand (by decide +kernel) (by decide) rfl
  rw [encounters, located]
  dsimp only [Session.encountersOf]
  rw [outer, Session.encounters_expand _ _ _ enters, Session.encounters, Session.encounters, inner,
    Session.encounters, Session.encounters]
  rfl

theorem option_macros_scoped_part : ∃ program again,
    linked.generate {} = .ok program ∧
    linked.generate { macros := .ofList [("Part", "c"), ("Lib", "é")] } = .ok again ∧
    again.code = program.code ∧
    program.references = [⟨"$(Lib)", ⟨"b"⟩, ⟨19, 25⟩⟩, ⟨"b.dll", ⟨"a"⟩, ⟨49, 60⟩⟩] ∧
    again.references = [⟨"é", ⟨"b"⟩, ⟨19, 25⟩⟩, ⟨"c.dll", ⟨"a"⟩, ⟨49, 60⟩⟩] := by
  have located : linked.find? linked.root = some linkedRoot := by decide
  obtain ⟨same, -, -, -, renamed⟩ := option_macros_scoped linked {} (.ofList [("Part", "c"), ("Lib", "é")])
  have generated := generate_of_root located (by decide) {}
  obtain ⟨again, regenerated, code, -⟩ := renamed _ generated
  refine ⟨_, again, generated, regenerated, code, ?_, ?_⟩
  · rw [generate_references generated, linked_encounters]
    decide +kernel
  · rw [generate_references regenerated, same, linked_encounters]
    decide +kernel

end Bundle

end TextTemplate
