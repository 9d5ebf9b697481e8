import Mathlib.Data.List.Forall2
import TextTemplate.Proofs.RecordedProblems
import TextTemplate.Proofs.TracedCode
import TextTemplate.Proofs.Traversal

/-! Two bundles side by side that have the same templates but for some of their nodes. Includes lead
to the same places in both, so the encounters of the two keep pace, and a relation between what is
come upon at a changed node and in its place holds between all that is come upon. -/

namespace TextTemplate

/-- What may stand in place of a node: other texts for a text, a directive for a node of another
kind. -/
structure Change where
  texts : LiteralText → List LiteralText → Prop
  directive : SourceId → Node → Directive → Prop

/-- Nodes of `source`, and the same nodes with any of them changed. -/
inductive Change.Rewrites (change : Change) (source : SourceId) : List Node → List Node → Prop where
  | nil : Rewrites change source [] []
  | keep {node : Node} {rest others : List Node} (more : Rewrites change source rest others) :
      Rewrites change source (node :: rest) (node :: others)
  | texts {literal : LiteralText} {parts : List LiteralText} {rest others : List Node}
      (changed : change.texts literal parts) (more : Rewrites change source rest others) :
      Rewrites change source (.text literal :: rest) (parts.map .text ++ others)
  | directive {node : Node} {given : Directive} {rest others : List Node}
      (changed : change.directive source node given) (more : Rewrites change source rest others) :
      Rewrites change source (node :: rest) (.directive given :: others)

structure Template.Changed (change : Change) (template other : Template) : Prop where
  source : other.source = template.source
  text : other.text = template.text
  nodes : change.Rewrites template.source template.nodes other.nodes

structure Bundle.Changed (change : Change) (bundle other : Bundle) : Prop where
  root : other.root = bundle.root
  macros : other.macros = bundle.macros
  templates : List.Forall₂ (Template.Changed change) bundle.templates other.templates

private theorem Change.Rewrites.imp {change more : Change} {source : SourceId} {nodes others : List Node}
    (rewrites : change.Rewrites source nodes others)
    (texts : ∀ literal parts, .text literal ∈ nodes → change.texts literal parts → more.texts literal parts)
    (directive : ∀ node given, change.directive source node given → more.directive source node given) :
    more.Rewrites source nodes others := by
  induction rewrites with
  | nil => exact .nil
  | keep _ ih =>
    apply Rewrites.keep
    apply ih
    intro literal parts member
    exact texts literal parts (List.mem_cons_of_mem _ member)
  | texts changed _ ih =>
    apply Rewrites.texts (texts _ _ List.mem_cons_self changed)
    apply ih
    intro literal parts member
    exact texts literal parts (List.mem_cons_of_mem _ member)
  | directive changed _ ih =>
    apply Rewrites.directive (directive _ _ changed)
    apply ih
    intro literal parts member
    exact texts literal parts (List.mem_cons_of_mem _ member)

theorem Bundle.Changed.imp {change more : Change} {bundle other : Bundle} (changed : bundle.Changed change other)
    (texts : ∀ template ∈ bundle.templates, ∀ literal parts, .text literal ∈ template.nodes →
      change.texts literal parts → more.texts literal parts)
    (directive : ∀ source node given, change.directive source node given → more.directive source node given) :
    bundle.Changed more other := by
  refine ⟨changed.root, changed.macros, ?_⟩
  have templates := changed.templates
  generalize bundle.templates = before, other.templates = after at texts templates
  induction templates with
  | nil => exact .nil
  | @cons template _ _ _ first _ ih =>
    have nodes := first.nodes.imp (texts template List.mem_cons_self) (directive template.source)
    apply List.Forall₂.cons ⟨first.source, first.text, nodes⟩
    apply ih
    intro later member
    exact texts later (List.mem_cons_of_mem _ member)

namespace Session
variable {session : Session} {sources : OpenSources} {source : SourceId} {node : Node}

def sighting (session : Session) (sources : OpenSources) (depth : Nat) (source : SourceId) : Node → Encounter
  | .text literal => .run source [literal]
  | .directive given => .directive source given
  | .code fragment => .code source depth fragment
  | .inclusion inclusion =>
    match session.expansion sources source inclusion with
    | .unresolved => .refused source inclusion (.unresolved inclusion.file)
    | .cyclic target => .refused source inclusion (.cyclic target.source)
    | .expand target _ => .expanded source inclusion target.source

private theorem encounters_texts (depth : Nat) (held parts : List LiteralText) (rest : List Node) :
    session.encounters sources depth source held (parts.map .text ++ rest) =
      session.encounters sources depth source (held ++ parts) rest := by
  induction parts generalizing held with
  | nil => rw [List.append_nil, List.map_nil, List.nil_append]
  | cons part parts ih => rw [List.map_cons, List.cons_append, encounters, ih, List.append_assoc]; rfl

theorem encounters_cons_plain (other : node.isText = false)
    (plain : session.includes.expanded? sources source node = none) (depth : Nat)
    (held : List LiteralText) (rest : List Node) :
    session.encounters sources depth source held (node :: rest) =
      Encounter.ofHeld source held ++
        session.sighting sources depth source node :: session.encounters sources depth source [] rest := by
  cases node with
  | text literal => cases other
  | directive given => rw [encounters]; rfl
  | code fragment => rw [encounters]; rfl
  | inclusion inclusion =>
    cases decided : session.expansion sources source inclusion with
    | unresolved => rw [encounters_unresolved _ _ _ decided]; simp only [sighting, decided]
    | cyclic target => rw [encounters_cyclic _ _ _ decided]; simp only [sighting, decided]
    | expand target opened => cases plain.symm.trans (expanded_of_expansion decided)

theorem encounters_cons_expanded {target : Template} {opened : OpenSources}
    (expanded : session.includes.expanded? sources source node = some (target, opened)) (depth : Nat)
    (held : List LiteralText) (rest : List Node) :
    session.encounters sources depth source held (node :: rest) =
      Encounter.ofHeld source held ++
        session.sighting sources depth source node ::
          (session.encounters opened (depth + 1) target.source [] target.nodes ++
            session.encounters sources depth source [] rest) := by
  cases node with
  | inclusion inclusion =>
    have decided := expansion_of_expanded expanded
    rw [encounters_expand _ _ _ decided]
    simp only [sighting, decided]
  | directive given => cases expanded
  | text literal => cases expanded
  | code fragment => cases expanded

end Session

/-- A relation between encounters, given one between texts held back, that holds where nodes are kept
and where they are changed, and of encounters one behind the other. -/
structure Change.Carries (change : Change) (session : Session)
    (alike : List LiteralText → List LiteralText → Prop)
    (related : List Encounter → List Encounter → Prop) : Prop where
  start : alike [] []
  hold : ∀ {held others} literal, alike held others → alike (held ++ [literal]) (others ++ [literal])
  texts : ∀ {held others literal parts}, change.texts literal parts → alike held others →
    alike (held ++ [literal]) (others ++ parts)
  run : ∀ {held others} source, alike held others →
    related (Encounter.ofHeld source held) (Encounter.ofHeld source others)
  append : ∀ {front others back more}, related front others → related back more →
    related (front ++ back) (others ++ more)
  same : ∀ encounter, related [encounter] [encounter]
  directive : ∀ {source node given}, change.directive source node given → node.isText = false ∧
    ∀ sources, session.includes.expanded? sources source node = none ∧
      ∀ depth, related [session.sighting sources depth source node] [.directive source given]

theorem Change.carries_each {change : Change} {session : Session} {swaps : Encounter → Encounter → Prop}
    (texts : ∀ literal parts, ¬ change.texts literal parts) (same : ∀ encounter, swaps encounter encounter)
    (directive : ∀ {source node given}, change.directive source node given → node.isText = false ∧
      ∀ sources, session.includes.expanded? sources source node = none ∧
        ∀ depth, swaps (session.sighting sources depth source node) (.directive source given)) :
    change.Carries session Eq (List.Forall₂ swaps) where
  start := rfl
  hold literal alike := congrArg (· ++ [literal]) alike
  texts changed := absurd changed (texts _ _)
  run source alike := alike ▸ List.forall₂_same.mpr fun encounter _ => same encounter
  append front back := List.rel_append front back
  same encounter := .cons (same encounter) .nil
  directive := by
    intro source node given changed
    obtain ⟨nontext, replaces⟩ := directive changed
    refine ⟨nontext, ?_⟩
    intro sources
    obtain ⟨plain, swapped⟩ := replaces sources
    exact ⟨plain, fun depth => .cons (swapped depth) .nil⟩

namespace Bundle

theorem session_expand {bundle : Bundle} {options : Options} {sources opened : OpenSources} {source : SourceId}
    {inclusion : Inclusion} {target : Template} (aimed : bundle.target? source inclusion = some target.source)
    (found : bundle.find? target.source = some target) (entered : sources.enter? target.source = some opened) :
    (bundle.session options).expansion sources source inclusion = .expand target opened := by
  have resolved : bundle.includes.resolve? source inclusion = some target := by
    show (bundle.target? source inclusion).bind bundle.find? = some target
    rw [aimed, Option.bind_some, found]
  rw [Session.expansion, session_includes, resolved]
  dsimp only
  rw [entered]

theorem session_cyclic {bundle : Bundle} {options : Options} {sources : OpenSources} {source : SourceId}
    {inclusion : Inclusion} {target : Template} (found : bundle.resolve? source inclusion = some target)
    (open_ : target.source ∈ sources.chain) :
    (bundle.session options).expansion sources source inclusion = .cyclic target := by
  have resolved : bundle.includes.resolve? source inclusion = some target := found
  have refused : sources.enter? target.source = none := if_pos (List.contains_iff_mem.mpr open_)
  rw [Session.expansion, session_includes, resolved]
  dsimp only
  rw [refused]

theorem session_unresolved {bundle : Bundle} {options : Options} {source : SourceId} {inclusion : Inclusion}
    (unresolved : bundle.resolve? source inclusion = none) (sources : OpenSources) :
    (bundle.session options).expansion sources source inclusion = .unresolved := by
  have nowhere : bundle.includes.resolve? source inclusion = none := unresolved
  rw [Session.expansion, session_includes, nowhere]

def encounters (bundle : Bundle) (options : Options) : List Encounter :=
  match bundle.find? bundle.root with
  | some root => (bundle.session options).encountersOf root
  | none => []

namespace Changed
variable {change : Change} {bundle other : Bundle}

theorem find? (changed : bundle.Changed change other) (source : SourceId) :
    Option.Rel (Template.Changed change) (bundle.find? source) (other.find? source) := by
  have templates := changed.templates
  unfold Bundle.find?
  generalize bundle.templates = templates, other.templates = others at templates
  induction templates with
  | nil => exact .none
  | @cons template again rest more first _ ih =>
    rw [List.find?_cons, List.find?_cons, first.source]
    split
    · exact .some first
    · exact ih

theorem includes (changed : bundle.Changed change other) (origin : SourceId) (inclusion : Inclusion) :
    Option.Rel (Template.Changed change) (bundle.includes.resolve? origin inclusion)
      (other.includes.resolve? origin inclusion) := by
  have aimed : other.target? origin inclusion = bundle.target? origin inclusion := by
    rw [target?, target?, changed.macros]
  show Option.Rel _ ((bundle.target? origin inclusion).bind _) ((other.target? origin inclusion).bind _)
  rw [aimed]
  cases bundle.target? origin inclusion with
  | none => exact .none
  | some source => exact changed.find? source

/-- A node is expanded in both bundles or in neither, with the same sources open inside of it. -/
theorem expanded? (changed : bundle.Changed change other) (sources : OpenSources) (source : SourceId)
    (node : Node) : Option.Rel (fun inner outer => inner.1.Changed change outer.1 ∧ outer.2 = inner.2)
      (bundle.includes.expanded? sources source node) (other.includes.expanded? sources source node) := by
  cases node with
  | text literal => exact .none
  | directive given => exact .none
  | code fragment => exact .none
  | inclusion inclusion =>
    have found := changed.includes source inclusion
    rw [Includes.expanded?, Includes.expanded?]
    generalize bundle.includes.resolve? source inclusion = here,
      other.includes.resolve? source inclusion = there at found
    cases found with
    | none => exact .none
    | @some target again same =>
      rw [Option.bind_some, Option.bind_some, same.source]
      cases sources.enter? target.source with
      | none => exact .none
      | some opened => exact .some ⟨same, rfl⟩

private theorem sighting (changed : bundle.Changed change other) (options : Options) (sources : OpenSources)
    (depth : Nat) (source : SourceId) (node : Node) :
    (other.session options).sighting sources depth source node =
      (bundle.session options).sighting sources depth source node := by
  cases node with
  | text literal => rfl
  | directive given => rfl
  | code fragment => rfl
  | inclusion inclusion =>
    have found := changed.includes source inclusion
    simp only [Session.sighting, Session.expansion, session_includes]
    generalize bundle.includes.resolve? source inclusion = here,
      other.includes.resolve? source inclusion = there at found
    cases found with
    | none => rfl
    | @some target again same =>
      dsimp only
      rw [same.source]
      cases sources.enter? target.source with
      | none => simp only [same.source]
      | some opened => simp only [same.source]

private theorem plain (changed : bundle.Changed change other) {sources : OpenSources} {source : SourceId} {node : Node}
    (plain : bundle.includes.expanded? sources source node = none) :
    other.includes.expanded? sources source node = none := by
  have pace := changed.expanded? sources source node
  rw [plain] at pace
  generalize other.includes.expanded? sources source node = there at pace
  cases pace
  rfl

private theorem expanded (changed : bundle.Changed change other) {sources opened : OpenSources} {source : SourceId}
    {node : Node} {target : Template}
    (expanded : bundle.includes.expanded? sources source node = some (target, opened)) :
    ∃ again, other.includes.expanded? sources source node = some (again, opened) ∧
      target.Changed change again := by
  have pace := changed.expanded? sources source node
  rw [expanded] at pace
  generalize other.includes.expanded? sources source node = there at pace
  cases pace with
  | @some _ inside same =>
    obtain ⟨again, chain⟩ := inside
    obtain ⟨alike, rfl⟩ := same
    exact ⟨again, rfl, alike⟩

variable {options : Options} {alike : List LiteralText → List LiteralText → Prop}
  {related : List Encounter → List Encounter → Prop}

private theorem nodes_related (changed : bundle.Changed change other)
    (carries : change.Carries (bundle.session options) alike related) {sources : OpenSources} (depth : Nat)
    {source : SourceId} {nodes others : List Node} {before after : List LiteralText}
    (rewrites : change.Rewrites source nodes others) (held : alike before after) :
    related ((bundle.session options).encounters sources depth source before nodes)
      ((other.session options).encounters sources depth source after others) := by
  induction sources, source, nodes using Includes.visits.induct bundle.includes
    generalizing depth before after others with
  | case1 sources source =>
    cases rewrites
    rw [Session.encounters, Session.encounters]
    exact carries.run source held
  | case2 sources source node rest inner ih =>
    cases rewrites with
    | texts changed more =>
      rw [Session.encounters_texts, Session.encounters]
      exact ih depth more (carries.texts changed held)
    | directive replaced more =>
      obtain ⟨nontext, replaces⟩ := carries.directive replaced
      obtain ⟨plain, sighted⟩ := replaces sources
      rw [Session.encounters_cons_plain nontext plain, Session.encounters_cons_plain rfl rfl]
      apply carries.append (carries.run source held)
      exact carries.append (sighted depth) (ih depth more carries.start)
    | keep more =>
      by_cases textual : node.isText = true
      · obtain ⟨literal, rfl⟩ := Node.exists_text textual
        rw [Session.encounters, Session.encounters]
        exact ih depth more (carries.hold literal held)
      · have nontext := Bool.eq_false_iff.mpr textual
        have later := ih depth more carries.start
        cases expanded : bundle.includes.expanded? sources source node with
        | none =>
          rw [Session.encounters_cons_plain nontext expanded,
            Session.encounters_cons_plain nontext (changed.plain expanded), changed.sighting]
          apply carries.append (carries.run source held)
          exact carries.append (carries.same _) later
        | some pair =>
          obtain ⟨target, opened⟩ := pair
          obtain ⟨again, expandedToo, same⟩ := changed.expanded expanded
          rw [Session.encounters_cons_expanded expanded, Session.encounters_cons_expanded expandedToo,
            changed.sighting, same.source]
          have inside := inner target opened expanded (depth + 1) same.nodes carries.start
          apply carries.append (carries.run source held)
          exact carries.append (carries.same _) (carries.append inside later)

theorem encounters_related (changed : bundle.Changed change other)
    (carries : change.Carries (bundle.session options) alike related) :
    related (bundle.encounters options) (other.encounters options) := by
  have found := changed.find? bundle.root
  rw [Bundle.encounters, Bundle.encounters, changed.root]
  generalize bundle.find? bundle.root = here, other.find? bundle.root = there at found
  cases found with
  | none => exact carries.run bundle.root carries.start
  | @some root again same =>
    show related (Session.encounters _ ⟨[root.source]⟩ 0 root.source [] root.nodes)
      (Session.encounters _ ⟨[again.source]⟩ 0 again.source [] again.nodes)
    rw [same.source]
    exact changed.nodes_related carries 0 same.nodes carries.start

end Changed

end Bundle

namespace Walk

/-- All but problems and checks is the same for two walks, as far as it comes to a program. -/
structure Concurs (first second : Walk) : Prop where
  current : second.current = first.current
  alike : second.Alike first
  references : second.references = first.references

namespace Concurs
variable {first second : Walk}

theorem refl (walk : Walk) : walk.Concurs walk := ⟨rfl, .refl walk, rfl⟩

private theorem undergo (concurs : first.Concurs second) (effect : Effect) :
    (first.undergo effect).Concurs (second.undergo effect) where
  current := congrArg effect.change concurs.current
  alike := ⟨rfl, rfl, rfl⟩
  references := congrArg (· ++ effect.references) concurs.references

theorem check (concurs : first.Concurs second) : first.check.Concurs second.check :=
  ⟨concurs.current, ⟨concurs.alike.1, concurs.alike.2, concurs.alike.3⟩, concurs.references⟩

theorem gather (concurs : first.Concurs second) (macros : Macros) (encounter : Encounter) :
    (first.gather macros encounter).Concurs (second.gather macros encounter) := by
  have alike := concurs.alike
  cases encounter with
  | run source texts =>
    refine ⟨?_, ⟨alike.1, alike.2, alike.3⟩, concurs.references⟩
    exact congrArg (fun frame => frame.appendEmission (Emission.ofTexts source texts)) concurs.current
  | directive source given =>
    obtain ⟨effect, -, visited⟩ := visitDirective_effect first.check source given macros
    rw [Walk.gather, Walk.gather, visited _ (.refl _), visited _ concurs.check.alike]
    exact concurs.check.undergo effect
  | code source depth fragment =>
    have checked : Concurs { first.check with depth } { second.check with depth } :=
      ⟨concurs.current, ⟨alike.1, alike.2, alike.3⟩, concurs.references⟩
    rw [Walk.gather, Walk.gather, visitCode_effect _ source fragment (.refl _) rfl,
      visitCode_effect _ source fragment checked.alike rfl]
    exact checked.undergo _
  | refused source inclusion complaint =>
    exact ⟨concurs.current, ⟨alike.1, alike.2, alike.3⟩, concurs.references⟩
  | expanded source inclusion target => exact concurs.check

end Concurs

end Walk

namespace Bundle

theorem fits_encounters (bundle : Bundle) (options : Options) :
    bundle.fits options = (Walk.start bundle.root).affordsAll (options.macros.withDefaults bundle.macros)
      (bundle.encounters options) := by
  rw [fits, encounters]
  cases located : bundle.find? bundle.root with
  | none => rfl
  | some root =>
    have named : root.source = bundle.root := by simpa using List.find?_some located
    rw [← named]
    rfl

theorem generate_encounters {bundle : Bundle} {root : Template}
    (located : bundle.find? bundle.root = some root) (options : Options) :
    let known := { options with macros := options.macros.withDefaults bundle.macros }
    let walk := (bundle.encounters options).foldl (Walk.gather known.macros) (Walk.start bundle.root)
    bundle.generate options = if bundle.fits options then
        .ok (.assemble ⟨walk.current, walk.problems, walk.references, walk.outputExtension?, walk.checks⟩ known)
      else .error .overflow := by
  intro known walk
  have named : root.source = bundle.root := by simpa using List.find?_some located
  have come : bundle.encounters options = (bundle.session options).encountersOf root := by
    rw [encounters, located]
  rw [generate_located located, Session.gathered]
  simp only [walk, come, ← named]
  rfl

theorem program_encounters {bundle : Bundle} {options : Options} {program : Program}
    (generated : bundle.generate options = .ok program) :
    let known := { options with macros := options.macros.withDefaults bundle.macros }
    let walk := (bundle.encounters options).foldl (Walk.gather known.macros) (Walk.start bundle.root)
    program =
      .assemble ⟨walk.current, walk.problems, walk.references, walk.outputExtension?, walk.checks⟩ known := by
  intro known walk
  obtain ⟨root, located, -⟩ := generate_gathered generated
  rw [generate_encounters located] at generated
  split at generated
  · exact (Except.ok.inj generated).symm
  · cases generated

theorem generate_problems {bundle : Bundle} {options : Options} {program : Program}
    (generated : bundle.generate options = .ok program) :
    program.problems = (bundle.encounters options).filterMap Encounter.problem? := by
  cases program_encounters generated
  exact Walk.gatherAll_problems _ _

namespace Changed
variable {change : Change} {bundle other : Bundle} {options : Options}

theorem generate (changed : bundle.Changed change other)
    (concurs : ∀ macros, ((bundle.encounters options).foldl (Walk.gather macros) (.start bundle.root)).Concurs
      ((other.encounters options).foldl (Walk.gather macros) (.start bundle.root)))
    (room : other.fits options = bundle.fits options) :
    other.generate options = (bundle.generate options).map fun program =>
      { program with problems := (other.encounters options).filterMap Encounter.problem? } := by
  have found := changed.find? bundle.root
  cases located : bundle.find? bundle.root with
  | none =>
    have missing : other.find? other.root = none := by
      rw [changed.root]
      rw [located] at found
      generalize other.find? bundle.root = there at found
      cases found
      rfl
    rw [generate_missing located, generate_missing missing, changed.root]
    rfl
  | some root =>
    obtain ⟨again, there⟩ : ∃ again, other.find? other.root = some again := by
      rw [changed.root]
      rw [located] at found
      generalize other.find? bundle.root = there at found
      cases found
      exact ⟨_, rfl⟩
    rw [generate_encounters located, generate_encounters there, changed.macros, changed.root, room]
    cases bundle.fits options with
    | false => rfl
    | true =>
      have same := concurs (options.macros.withDefaults bundle.macros)
      simp only [same.current, same.references, same.alike.outputExtension?, Walk.gatherAll_problems]
      rfl

theorem generate_eq (changed : bundle.Changed change other)
    (concurs : ∀ macros, ((bundle.encounters options).foldl (Walk.gather macros) (.start bundle.root)).Concurs
      ((other.encounters options).foldl (Walk.gather macros) (.start bundle.root)))
    (room : other.fits options = bundle.fits options)
    (problems : (other.encounters options).filterMap Encounter.problem? =
      (bundle.encounters options).filterMap Encounter.problem?) :
    other.generate options = bundle.generate options := by
  rw [changed.generate concurs room, problems]
  cases generated : bundle.generate options with
  | error problem => rfl
  | ok program => rw [← generate_problems generated]; rfl

end Changed

end Bundle

end TextTemplate
