import TextTemplate.Proofs.LocatedReports
import TextTemplate.Proofs.MacroReferences
import TextTemplate.Proofs.NormalPaths
import TextTemplate.Proofs.OpenIncludes

/-! Templates that include themselves by their own names. Where an include leads is a normal path, while
sources are compared as they are spelled. A template whose source is normal is recognized in the include
and refused as cyclic; one that is spelled otherwise is taken for another file. -/

namespace TextTemplate
open Text

/-- A file name that is looked up as it is written. -/
structure IsPlainFile (file : String) : Prop where
  nonempty : file ≠ ""
  trimmed : trim file.toList = file.toList
  literal : ¬['$', '('] <:+: file.toList

namespace Encounter

def ofExpansion (source : SourceId) (inclusion : Inclusion) : Expansion → Encounter
  | .unresolved => .refused source inclusion (.unresolved inclusion.file)
  | .cyclic target => .refused source inclusion (.cyclic target.source)
  | .expand target _ => .expanded source inclusion target.source

@[simp] theorem ofExpansion_source (source : SourceId) (inclusion : Inclusion) (decision : Expansion) :
    (ofExpansion source inclusion decision).source = source := by
  cases decision <;> rfl

@[simp] theorem ofExpansion_nodes (source : SourceId) (inclusion : Inclusion) (decision : Expansion) :
    (ofExpansion source inclusion decision).nodes = [.inclusion inclusion] := by
  cases decision <;> rfl

end Encounter

namespace Session
variable {session : Session} {root : SourceId}

private theorem resolve?_of_cyclic {sources : OpenSources} {source : SourceId} {inclusion : Inclusion}
    {target : Template} (decided : session.expansion sources source inclusion = .cyclic target) :
    session.includes.resolve? source inclusion = some target := by
  unfold expansion at decided
  split at decided
  next => cases decided
  next found resolved =>
    split at decided
    next =>
      cases decided
      exact resolved
    next => cases decided

theorem encounters_inclusion (session : Session) (sources : OpenSources) (depth : Nat) (source : SourceId)
    (held : List LiteralText) (inclusion : Inclusion) (rest : List Node) :
    ∃ nested, session.encounters sources depth source held (.inclusion inclusion :: rest) =
      Encounter.ofHeld source held ++
        .ofExpansion source inclusion (session.expansion sources source inclusion) ::
          (nested ++ session.encounters sources depth source [] rest) ∧
      ∀ visit ∈ nested, ∃ target opened, session.expansion sources source inclusion = .expand target opened ∧
        visit ∈ session.encounters opened (depth + 1) target.source [] target.nodes := by
  cases decided : session.expansion sources source inclusion with
  | unresolved => exact ⟨[], encounters_unresolved _ _ _ decided, List.forall_mem_nil _⟩
  | cyclic target => exact ⟨[], encounters_cyclic _ _ _ decided, List.forall_mem_nil _⟩
  | expand target opened =>
    exact ⟨_, encounters_expand _ _ _ decided, fun visit member => ⟨target, opened, rfl, member⟩⟩

private theorem mem_encounters_of_mem {sources : OpenSources} {depth : Nat} {source : SourceId}
    {held : List LiteralText} {nodes : List Node} {inclusion : Inclusion}
    (member : .inclusion inclusion ∈ nodes) :
    .ofExpansion source inclusion (session.expansion sources source inclusion) ∈
      session.encounters sources depth source held nodes := by
  induction nodes generalizing held with
  | nil => cases member
  | cons node rest ih =>
    rcases List.mem_cons.mp member with rfl | later
    · obtain ⟨nested, visits, -⟩ := session.encounters_inclusion sources depth source held inclusion rest
      rw [visits]
      exact List.mem_append_right _ List.mem_cons_self
    · cases node with
      | text literal =>
        rw [encounters]
        exact ih later
      | directive given =>
        rw [encounters]
        exact List.mem_append_right _ (List.mem_cons_of_mem _ (ih later))
      | code fragment =>
        rw [encounters]
        exact List.mem_append_right _ (List.mem_cons_of_mem _ (ih later))
      | inclusion other =>
        obtain ⟨nested, visits, -⟩ := session.encounters_inclusion sources depth source held other rest
        rw [visits]
        exact List.mem_append_right _ (List.mem_cons_of_mem _ (List.mem_append_right _ (ih later)))

theorem not_mem_ofHeld {visit : Encounter} {inclusion : Inclusion} (stands : visit.nodes = [.inclusion inclusion])
    (source : SourceId) (held : List LiteralText) : visit ∉ Encounter.ofHeld source held := by
  intro early
  unfold Encounter.ofHeld at early
  split at early
  · cases early
  · cases List.mem_singleton.mp early
    cases held <;> cases stands

private theorem eq_or_mem_of_behind {visit first : Encounter} {others : List Encounter} {inclusion : Inclusion}
    {source : SourceId} {held : List LiteralText} (stands : visit.nodes = [.inclusion inclusion])
    (listed : visit ∈ Encounter.ofHeld source held ++ first :: others) : visit = first ∨ visit ∈ others := by
  rcases List.mem_append.mp listed with early | listed
  · exact absurd early (not_mem_ofHeld stands source held)
  · exact List.mem_cons.mp listed

theorem exists_expansion {sources : OpenSources} {depth : Nat} {source : SourceId} {held : List LiteralText}
    {nodes : List Node} (open_ : root ∈ sources.chain) {visit : Encounter} {inclusion : Inclusion}
    (listed : visit ∈ session.encounters sources depth source held nodes)
    (stands : visit.nodes = [.inclusion inclusion]) :
    ∃ others : OpenSources, root ∈ others.chain ∧
      visit = .ofExpansion visit.source inclusion (session.expansion others visit.source inclusion) := by
  induction sources, depth, source, held, nodes using Session.encounters.induct session with
  | case1 sources depth source held =>
    rw [encounters] at listed
    exact absurd listed (not_mem_ofHeld stands source held)
  | case2 sources depth source held literal rest ih =>
    rw [encounters] at listed
    exact ih open_ listed
  | case3 sources depth source held given rest ih =>
    rw [encounters] at listed
    rcases eq_or_mem_of_behind stands listed with rfl | later
    · cases stands
    · exact ih open_ later
  | case4 sources depth source held fragment rest ih =>
    rw [encounters] at listed
    rcases eq_or_mem_of_behind stands listed with rfl | later
    · cases stands
    · exact ih open_ later
  | case5 sources depth source held reference rest ih inner =>
    obtain ⟨nested, visits, inside⟩ := session.encounters_inclusion sources depth source held reference rest
    rw [visits] at listed
    rcases eq_or_mem_of_behind stands listed with rfl | listed
    · rw [Encounter.ofExpansion_nodes] at stands
      cases stands
      exact ⟨sources, open_, by rw [Encounter.ofExpansion_source]⟩
    rcases List.mem_append.mp listed with nested | later
    · obtain ⟨target, opened, decided, member⟩ := inside visit nested
      obtain ⟨-, rfl⟩ := OpenSources.enter?_eq_some_iff.mp (expansion_eq_expand decided).2
      exact inner target _ decided (List.mem_cons_of_mem _ open_) member
    · exact ih open_ later

end Session

namespace Bundle
variable {bundle : Bundle} {root : Template} {inclusion : Inclusion}

/-- An include of a template's own name leads to the normal form of its source. -/
theorem target?_name {source : SourceId} (plain : IsPlainFile inclusion.file)
    (named : inclusion.file = SourcePath.name source.path) :
    bundle.target? source inclusion = some ⟨SourcePath.normalForm source.path⟩ := by
  have file : bundle.macros.expand (.ofList (trim inclusion.file.toList)) = inclusion.file := by
    rw [plain.trimmed, String.ofList_toList, Macros.expand, Macros.expandChars_eq plain.literal,
      String.ofList_toList]
  have filled : ¬inclusion.file.isEmpty = true := fun empty => plain.nonempty (String.isEmpty_iff.mp empty)
  rw [target?, file, if_neg filled, named, SourcePath.resolve_name]

private theorem resolve?_name (located : bundle.find? bundle.root = some root) (plain : IsPlainFile inclusion.file)
    (named : inclusion.file = SourcePath.name root.source.path) (normal : SourcePath.IsNormal root.source.path) :
    bundle.resolve? root.source inclusion = some root := by
  rw [resolve?, target?_name plain named, Option.bind_some, SourcePath.normalForm_eq_iff.mpr normal]
  exact find?_self located

private theorem isNormal_of_resolve?_name {target : Template} (plain : IsPlainFile inclusion.file)
    (named : inclusion.file = SourcePath.name root.source.path)
    (found : bundle.resolve? root.source inclusion = some target) (same : target.source = root.source) :
    SourcePath.IsNormal root.source.path := by
  rw [resolve?, target?_name plain named, Option.bind_some] at found
  have spelled : target.source = ⟨SourcePath.normalForm root.source.path⟩ := by
    simpa using List.find?_some found
  exact SourcePath.normalForm_eq_iff.mp (congrArg SourceId.path (spelled.symm.trans same))

theorem exists_expansion (located : bundle.find? bundle.root = some root) {options : Options} {visit : Encounter}
    (listed : visit ∈ bundle.encounters options) (stands : visit.nodes = [.inclusion inclusion]) :
    ∃ sources : OpenSources, root.source ∈ sources.chain ∧
      visit = .ofExpansion visit.source inclusion
        ((bundle.session options).expansion sources visit.source inclusion) := by
  rw [encounters, located] at listed
  exact Session.exists_expansion (List.mem_singleton_self _) listed stands

private theorem root_expanded_once (located : bundle.find? bundle.root = some root) {options : Options}
    {source : SourceId} :
    .expanded source inclusion root.source ∉ bundle.encounters options := by
  intro listed
  obtain ⟨sources, open_, visited⟩ := exists_expansion located listed rfl
  cases decided : (bundle.session options).expansion sources source inclusion with
  | unresolved => cases visited.trans (congrArg _ decided)
  | cyclic target => cases visited.trans (congrArg _ decided)
  | expand target opened =>
    have same : root.source = target.source := by
      injection visited.trans (congrArg _ decided)
    have entered := (Session.expansion_eq_expand decided).2
    rw [← same] at entered
    cases entered.symm.trans (OpenSources.enter?_eq_none open_)

/-- Each visit of the root's include of itself is refused as cyclic exactly if its source is normal. -/
theorem refused_iff_isNormal (located : bundle.find? bundle.root = some root) (plain : IsPlainFile inclusion.file)
    (named : inclusion.file = SourcePath.name root.source.path) {options : Options} {visit : Encounter}
    (listed : visit ∈ bundle.encounters options) (home : visit.source = root.source)
    (stands : visit.nodes = [.inclusion inclusion]) :
    visit = .refused root.source inclusion (.cyclic root.source) ↔ SourcePath.IsNormal root.source.path := by
  obtain ⟨sources, open_, visited⟩ := exists_expansion located listed stands
  rw [home] at visited
  constructor
  · intro refused
    cases decided : (bundle.session options).expansion sources root.source inclusion with
    | unresolved => cases refused.symm.trans (visited.trans (congrArg _ decided))
    | cyclic target =>
      have same : root.source = target.source := by
        injection refused.symm.trans (visited.trans (congrArg _ decided)) with _ _ complaint
        injection complaint
      exact isNormal_of_resolve?_name plain named (Session.resolve?_of_cyclic decided) same.symm
    | expand target opened => cases refused.symm.trans (visited.trans (congrArg _ decided))
  · intro normal
    rw [visited, session_cyclic (resolve?_name located plain named normal) open_]
    rfl

/-- A template that includes itself by its own name: the include is visited, and each visit of it is
refused as cyclic if the source of the template is normal, and none is if the source is spelled otherwise.
The template is not expanded a second time. -/
theorem self_include_recognized (located : bundle.find? bundle.root = some root)
    (member : .inclusion inclusion ∈ root.nodes) (plain : IsPlainFile inclusion.file)
    (named : inclusion.file = SourcePath.name root.source.path) (options : Options) :
    (∃ visit ∈ bundle.encounters options, visit.source = root.source ∧ visit.nodes = [.inclusion inclusion]) ∧
    (∀ visit ∈ bundle.encounters options, visit.source = root.source → visit.nodes = [.inclusion inclusion] →
      (visit = .refused root.source inclusion (.cyclic root.source) ↔ SourcePath.IsNormal root.source.path)) ∧
    (∀ source other, .expanded source other root.source ∉ bundle.encounters options) ∧
    (SourcePath.IsNormal root.source.path →
      let place := if inclusion.fileSpan.stop ≤ inclusion.fileSpan.start then inclusion.span else inclusion.fileSpan
      match bundle.generate options with
      | .ok program => ⟨.cyclicInclude, root.source, place,
          "`" ++ root.source.path ++ "` is already being expanded"⟩ ∈ program.problems
      | .error problem => problem = .overflow ∧ ∃ span, bundle.Takes options span ∧ ¬span.IsWord) := by
  obtain ⟨visit, listed, home, stands⟩ : ∃ visit ∈ bundle.encounters options,
      visit.source = root.source ∧ visit.nodes = [.inclusion inclusion] := by
    rw [encounters, located]
    exact ⟨_, Session.mem_encounters_of_mem member, Encounter.ofExpansion_source .., Encounter.ofExpansion_nodes ..⟩
  refine ⟨⟨visit, listed, home, stands⟩,
    fun other known own names => refused_iff_isNormal located plain named known own names,
    fun _ _ => root_expanded_once located, fun normal => ?_⟩
  have refused := (refused_iff_isNormal located plain named listed home stands).mpr normal
  have records : visit.problem? = some ((Complaint.cyclic root.source).problem root.source inclusion.blameSpan) :=
    refused ▸ rfl
  rw [Inclusion.blameSpan_eq] at records
  cases generated : bundle.generate options with
  | ok program =>
    show _ ∈ program.problems
    rw [generate_problems generated]
    exact List.mem_filterMap.mpr ⟨visit, listed, records⟩
  | error problem =>
    rw [generate_located located] at generated
    split at generated
    · cases generated
    next short => exact ⟨(Except.error.inj generated).symm, fits_eq_false_iff.mp (Bool.eq_false_iff.mpr short)⟩

def selfRoot (path : String) : Template := .build ⟨path⟩ [.inclusion "a.tt"]

def selfIncluding (path : String) : Bundle := ⟨⟨path⟩, [selfRoot path], .empty⟩

theorem selfIncluding_find? (path : String) :
    (selfIncluding path).find? (selfIncluding path).root = some (selfRoot path) :=
  List.find?_cons_of_pos (decide_eq_true rfl)

theorem selfRoot_nodes (path : String) : (selfRoot path).nodes = [.inclusion ⟨"a.tt", ⟨18, 22⟩, ⟨0, 26⟩⟩] := by
  have same : (selfRoot path).nodes = (selfRoot "").nodes := rfl
  rw [same]
  decide

private theorem plain_file : IsPlainFile "a.tt" := by
  refine ⟨by decide, by decide, fun inside => ?_⟩
  have dollar : '$' ∈ "a.tt".toList := inside.subset List.mem_cons_self
  exact absurd dollar (by decide)

theorem self_include_recognized_above : SourcePath.IsNormal "../d/a.tt" ∧
    ∃ program, (selfIncluding "../d/a.tt").generate {} = .ok program ∧
      ⟨.cyclicInclude, ⟨"../d/a.tt"⟩, ⟨18, 22⟩, "`../d/a.tt` is already being expanded"⟩ ∈ program.problems := by
  have normal : SourcePath.IsNormal "../d/a.tt" := SourcePath.normalForm_eq_iff.mp (by decide)
  have member : .inclusion ⟨"a.tt", ⟨18, 22⟩, ⟨0, 26⟩⟩ ∈ (selfRoot "../d/a.tt").nodes := by
    rw [selfRoot_nodes]
    exact List.mem_cons_self
  obtain ⟨-, -, -, cyclic⟩ := self_include_recognized (selfIncluding_find? "../d/a.tt") member plain_file
    (by decide) {}
  have generated := generate_of_root (selfIncluding_find? "../d/a.tt") (by decide) {}
  have recorded := cyclic normal
  rw [generated] at recorded
  exact ⟨normal, _, generated, recorded⟩

/-- Spelled with a dot in front, the template does not recognize itself. -/
theorem self_include_unrecognized : SourcePath.name "./a.tt" = "a.tt" ∧
    ∃ program, (selfIncluding "./a.tt").generate {} = .ok program ∧
      program.problems = [⟨.unresolvedInclude, ⟨"./a.tt"⟩, ⟨18, 22⟩, "cannot resolve include `a.tt`"⟩] := by
  have located := selfIncluding_find? "./a.tt"
  have nowhere : ((selfIncluding "./a.tt").session {}).expansion ⟨[(selfRoot "./a.tt").source]⟩
      (selfRoot "./a.tt").source ⟨"a.tt", ⟨18, 22⟩, ⟨0, 26⟩⟩ = .unresolved :=
    session_unresolved (by decide +kernel) _
  have visits : (selfIncluding "./a.tt").encounters {} =
      [.refused ⟨"./a.tt"⟩ ⟨"a.tt", ⟨18, 22⟩, ⟨0, 26⟩⟩ (.unresolved "a.tt")] := by
    rw [encounters, located]
    dsimp only [Session.encountersOf]
    rw [selfRoot_nodes, Session.encounters_unresolved _ _ _ nowhere, Session.encounters]
    rfl
  have generated := generate_of_root located (by decide) {}
  refine ⟨by decide, _, generated, ?_⟩
  rw [generate_problems generated, visits]
  rfl

end Bundle

end TextTemplate
