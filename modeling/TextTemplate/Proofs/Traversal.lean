import Mathlib.Logic.Relation
import TextTemplate.Proofs.SingleFrame

/-! A walk as moves from one node to the next, with the nodes still to visit kept in view: those
left of the innermost open source, and those left of the sources around it. Collecting makes
these moves and no others, so what each move preserves holds of everything that is collected. -/

namespace TextTemplate

namespace Includes

/-- The template whose nodes are visited in place of a node, and the sources open inside of it. -/
def expanded? (includes : Includes) (sources : OpenSources) (source : SourceId) :
    Node → Option (Template × OpenSources)
  | .inclusion inclusion =>
    (includes.resolve? source inclusion).bind fun target =>
      (sources.enter? target.source).map fun opened => (target, opened)
  | _ => Option.none

theorem expanded?_eq_some {includes : Includes} {sources opened : OpenSources} {source : SourceId}
    {node : Node} {target : Template} (expanded : includes.expanded? sources source node = some (target, opened)) :
    target ∈ includes.templates ∧ sources.enter? target.source = some opened := by
  cases node with
  | inclusion inclusion =>
    obtain ⟨found, resolved, entered⟩ := Option.bind_eq_some_iff.mp expanded
    obtain ⟨chain, opens, same⟩ := Option.map_eq_some_iff.mp entered
    cases same
    exact ⟨includes.resolve?_mem resolved, opens⟩
  | directive given => cases expanded
  | text literal => cases expanded
  | code fragment => cases expanded

private theorem unopened_lt_of_expanded {includes : Includes} {sources opened : OpenSources} {source : SourceId}
    {node : Node} {target : Template} (expanded : includes.expanded? sources source node = some (target, opened)) :
    includes.unopened opened < includes.unopened sources :=
  have ⟨known, entered⟩ := expanded?_eq_some expanded
  unopened_lt known entered

def visits (includes : Includes) (sources : OpenSources) (source : SourceId) (nodes : List Node) :
    List (SourceId × Node) :=
  match nodes with
  | [] => []
  | node :: rest =>
    (source, node) ::
      ((match _expanded : includes.expanded? sources source node with
        | some (target, opened) => visits includes opened target.source target.nodes
        | Option.none => []) ++
      visits includes sources source rest)
termination_by (includes.unopened sources, nodes.length)
decreasing_by
  · exact Prod.Lex.left _ _ (unopened_lt_of_expanded ‹_›)
  · exact Prod.Lex.right _ (Nat.lt_succ_self _)

def visitsOf (includes : Includes) (root : Template) : List (SourceId × Node) :=
  includes.visits ⟨[root.source]⟩ root.source root.nodes

section
variable {includes : Includes} {sources : OpenSources} {source : SourceId} {node : Node}

theorem visits_nil : includes.visits sources source [] = [] := by
  rw [visits]

theorem visits_cons_plain (plain : includes.expanded? sources source node = Option.none) (rest : List Node) :
    includes.visits sources source (node :: rest) =
      (source, node) :: includes.visits sources source rest := by
  rw [visits, plain]
  rfl

theorem visits_cons_expanded {target : Template} {opened : OpenSources}
    (expanded : includes.expanded? sources source node = some (target, opened)) (rest : List Node) :
    includes.visits sources source (node :: rest) =
      (source, node) ::
        (includes.visits opened target.source target.nodes ++ includes.visits sources source rest) := by
  rw [visits, expanded]

end

end Includes

namespace Session
variable {session : Session} {source : SourceId} {walk : Walk} {node : Node}

/-- The walk once a node is visited; it is inside of the target if the node is expanded. -/
def visitNode (session : Session) (source : SourceId) (walk : Walk) : Node → Walk
  | .text literal => walk.check.mapCurrent (·.consumeText literal)
  | .directive given => (walk.check.flush .fragment).visitDirective session.macros source given
  | .code fragment => (walk.check.flush .fragment).visitCode source fragment
  | .inclusion inclusion =>
    let flushed := walk.check.flush .fragment
    match session.expansion walk.sources source inclusion with
    | .unresolved => flushed.complain (.unresolved inclusion.file) source inclusion.blameSpan
    | .cyclic target => flushed.complain (.cyclic target.source) source inclusion.blameSpan
    | .expand target opened => flushed.descend opened target.source

theorem expansion_of_expanded {inclusion : Inclusion} {target : Template} {opened : OpenSources}
    {sources : OpenSources}
    (expanded : session.includes.expanded? sources source (.inclusion inclusion) = some (target, opened)) :
    session.expansion sources source inclusion = .expand target opened := by
  obtain ⟨found, resolved, entered⟩ := Option.bind_eq_some_iff.mp expanded
  obtain ⟨chain, opens, same⟩ := Option.map_eq_some_iff.mp entered
  cases same
  rw [expansion, resolved]
  simp only [opens]

theorem expanded_of_expansion {inclusion : Inclusion} {target : Template} {opened : OpenSources}
    {sources : OpenSources} (decided : session.expansion sources source inclusion = .expand target opened) :
    session.includes.expanded? sources source (.inclusion inclusion) = some (target, opened) := by
  obtain ⟨resolved, entered⟩ := expansion_eq_expand decided
  rw [Includes.expanded?, resolved, Option.bind_some, entered, Option.map_some]

theorem visitNode_unresolved {inclusion : Inclusion}
    (decided : session.expansion walk.sources source inclusion = .unresolved) :
    session.visitNode source walk (.inclusion inclusion) =
      (walk.check.flush .fragment).complain (.unresolved inclusion.file) source inclusion.blameSpan := by
  simp only [visitNode, decided]

theorem visitNode_cyclic {inclusion : Inclusion} {target : Template}
    (decided : session.expansion walk.sources source inclusion = .cyclic target) :
    session.visitNode source walk (.inclusion inclusion) =
      (walk.check.flush .fragment).complain (.cyclic target.source) source inclusion.blameSpan := by
  simp only [visitNode, decided]

theorem visitNode_samePlace (plain : session.includes.expanded? walk.sources source node = none) :
    (session.visitNode source walk node).SamePlace walk := by
  cases node with
  | text literal => exact ⟨rfl, rfl, rfl, rfl⟩
  | directive given => exact (Walk.visitDirective_samePlace ..).trans ⟨rfl, rfl, rfl, rfl⟩
  | code fragment => exact (Walk.visitCode_samePlace ..).trans ⟨rfl, rfl, rfl, rfl⟩
  | inclusion inclusion =>
    cases decided : session.expansion walk.sources source inclusion with
    | unresolved => exact visitNode_unresolved decided ▸ ⟨rfl, rfl, rfl, rfl⟩
    | cyclic target => exact visitNode_cyclic decided ▸ ⟨rfl, rfl, rfl, rfl⟩
    | expand target opened => cases plain.symm.trans (expanded_of_expansion decided)

theorem visitNode_expanded {target : Template} {opened : OpenSources}
    (expanded : session.includes.expanded? walk.sources source node = some (target, opened)) :
    session.visitNode source walk node = (walk.check.flush .fragment).descend opened target.source := by
  cases node with
  | inclusion inclusion => simp only [visitNode, expansion_of_expanded expanded]
  | directive given => cases expanded
  | text literal => cases expanded
  | code fragment => cases expanded

private theorem visitNode_checks : (session.visitNode source walk node).checks = walk.checks + 1 := by
  cases node with
  | text literal => rfl
  | directive given =>
    obtain ⟨effect, -, visited⟩ :=
      Walk.visitDirective_effect (walk.check.flush .fragment) source given session.macros
    rw [visitNode, visited _ (.refl _)]
    rfl
  | code fragment =>
    rw [visitNode, Walk.visitCode_effect _ source fragment (.refl _) rfl]
    rfl
  | inclusion inclusion =>
    simp only [visitNode]
    cases session.expansion walk.sources source inclusion <;> rfl

section
variable (go : session.cancelled walk.checks = false) (admitted : walk.admits node = true)
include go admitted

theorem walked_cons_plain (plain : session.includes.expanded? walk.sources source node = none)
    (rest : List Node) :
    session.walked source (node :: rest) walk =
      session.walked source rest (session.visitNode source walk node) := by
  cases node with
  | text literal => exact walked_text go literal
  | directive given => exact walked_directive go admitted
  | code fragment => exact walked_code go admitted
  | inclusion inclusion =>
    cases decided : session.expansion walk.sources source inclusion with
    | unresolved => exact visitNode_unresolved decided ▸ walked_unresolved go admitted decided
    | cyclic target => exact visitNode_cyclic decided ▸ walked_cyclic go admitted decided
    | expand target opened => cases plain.symm.trans (expanded_of_expansion decided)

theorem walked_cons_expanded {target : Template} {opened : OpenSources}
    (expanded : session.includes.expanded? walk.sources source node = some (target, opened))
    (rest : List Node) :
    session.walked source (node :: rest) walk =
      (session.finished target.source target.nodes (session.visitNode source walk node)).bind
        fun inner => session.walked source rest inner.ascend := by
  rw [visitNode_expanded expanded]
  cases node with
  | inclusion inclusion => exact walked_expand go admitted (expansion_of_expanded expanded)
  | directive given => cases expanded
  | text literal => cases expanded
  | code fragment => cases expanded

end

private theorem walked_sources {nodes : List Node} {done : Walk}
    (visited : session.walked source nodes walk = .ok done) :
    done.sources = walk.sources := by
  unfold walked at visited
  cases outcome : session.visit source nodes walk with
  | error interruption =>
    rw [outcome] at visited
    cases visited
  | ok inner =>
    rw [outcome] at visited
    cases visited
    exact inner.2

end Session

/-- A walk between two moves: what is left of the innermost open source and, innermost first, of
the sources around it. -/
structure Traversal where
  walk : Walk
  source : SourceId
  nodes : List Node
  around : List (SourceId × List Node) := []

namespace Traversal

def start (root : Template) : Traversal := ⟨Walk.start root.source, root.source, root.nodes, []⟩

def upcoming? (now : Traversal) : Option (SourceId × Node) :=
  now.nodes.head?.map fun node => (now.source, node)

def aheadAround (includes : Includes) : OpenSources → List (SourceId × List Node) → List (SourceId × Node)
  | _, [] => []
  | sources, (source, nodes) :: around =>
    includes.visits sources.exit source nodes ++ aheadAround includes sources.exit around

def ahead (includes : Includes) (now : Traversal) : List (SourceId × Node) :=
  includes.visits now.walk.sources now.source now.nodes ++
    aheadAround includes now.walk.sources now.around

/-- What is collected when the traversal ends here. -/
def collected (now : Traversal) : Collected :=
  let finished := now.walk.flush .endOfInput
  { frame := finished.current
    problems := finished.problems
    references := finished.references
    outputExtension? := finished.outputExtension?
    checks := finished.checks }

end Traversal

namespace Session

/-- What keeps the traversal from its next move: the signal, or a sum of offsets that overflows in the visit
of the next node or at the end of the source. -/
def interruption? (session : Session) (now : Traversal) : Option Interruption :=
  match now.nodes with
  | node :: _ =>
    if session.cancelled now.walk.checks then some (.aborted (now.walk.checks + 1))
    else if now.walk.admits node then none
    else some .overflow
  | [] => if now.walk.current.flushes then none else some .overflow

def outcome (session : Session) (last : Traversal) : Except Interruption Collected :=
  match session.interruption? last with
  | some interruption => .error interruption
  | none => .ok last.collected

/-- A move: the visit of a node when nothing interrupts it, or the end of an include. -/
inductive Step (session : Session) : Traversal → Traversal → Prop where
  | visit {walk : Walk} {source : SourceId} {node : Node} {rest : List Node}
      {around : List (SourceId × List Node)} (go : session.cancelled walk.checks = false)
      (admitted : walk.admits node = true)
      (plain : session.includes.expanded? walk.sources source node = none) :
      Step session ⟨walk, source, node :: rest, around⟩
        ⟨session.visitNode source walk node, source, rest, around⟩
  | enter {walk : Walk} {source : SourceId} {node : Node} {rest : List Node}
      {around : List (SourceId × List Node)} {target : Template} {opened : OpenSources}
      (go : session.cancelled walk.checks = false) (admitted : walk.admits node = true)
      (expanded : session.includes.expanded? walk.sources source node = some (target, opened)) :
      Step session ⟨walk, source, node :: rest, around⟩
        ⟨session.visitNode source walk node, target.source, target.nodes, (source, rest) :: around⟩
  | leave {walk : Walk} {source outer : SourceId} {rest : List Node}
      {around : List (SourceId × List Node)} (room : walk.current.flushes = true) :
      Step session ⟨walk, source, [], (outer, rest) :: around⟩
        ⟨(walk.flush .endOfInput).ascend, outer, rest, around⟩

def Moves (session : Session) (first last : Traversal) : Prop :=
  Relation.ReflTransGen session.Step first last

def Reaches (session : Session) (root : Template) (now : Traversal) : Prop :=
  session.Moves (.start root) now

variable {session : Session} {now next other : Traversal}

theorem Step.deterministic : Relator.RightUnique session.Step := by
  intro now next other first second
  cases first with
  | visit _ _ plain =>
    cases second with
    | visit => rfl
    | enter _ _ expanded => cases plain.symm.trans expanded
  | enter _ _ expanded =>
    cases second with
    | visit _ _ plain => cases plain.symm.trans expanded
    | enter _ _ again =>
      cases expanded.symm.trans again
      rfl
  | leave =>
    cases second with
    | leave => rfl

private theorem Step.uninterrupted (step : session.Step now next) : session.interruption? now = none := by
  cases step with
  | visit go admitted => simp only [interruption?, go, admitted, Bool.false_eq_true, if_false, if_true]
  | enter go admitted => simp only [interruption?, go, admitted, Bool.false_eq_true, if_false, if_true]
  | leave room => exact if_pos room

section
variable {walk : Walk} {source : SourceId} {node : Node} {rest : List Node} {around : List (SourceId × List Node)}

theorem interruption?_stop (stop : session.cancelled walk.checks = true) :
    session.interruption? ⟨walk, source, node :: rest, around⟩ = some (.aborted (walk.checks + 1)) :=
  if_pos stop

theorem interruption?_overflow (go : session.cancelled walk.checks = false) (refused : walk.admits node = false) :
    session.interruption? ⟨walk, source, node :: rest, around⟩ = some .overflow := by
  simp only [interruption?, go, refused, Bool.false_eq_true, if_false]

end

theorem stuck_of_interruption {interruption : Interruption}
    (interrupted : session.interruption? now = some interruption) : ¬session.Step now next := by
  intro step
  cases step.uninterrupted.symm.trans interrupted

/-- A move makes the first visit that is ahead and one check, or ends an include. -/
theorem Step.ahead (step : session.Step now next) :
    (∃ visit, now.upcoming? = some visit ∧ session.cancelled now.walk.checks = false ∧
      now.ahead session.includes = visit :: next.ahead session.includes ∧
      next.walk.checks = now.walk.checks + 1) ∨
    (now.upcoming? = none ∧ next.ahead session.includes = now.ahead session.includes ∧
      next.walk.checks = now.walk.checks ∧ next.around.length < now.around.length) := by
  cases step with
  | @visit walk source node rest around go admitted plain =>
    refine .inl ⟨_, rfl, go, ?_, visitNode_checks⟩
    simp only [Traversal.ahead, Includes.visits_cons_plain plain, (visitNode_samePlace plain).sources]
    rfl
  | @enter walk source node rest around target opened go admitted expanded =>
    have back := OpenSources.exit_of_enter? (Includes.expanded?_eq_some expanded).2
    refine .inl ⟨_, rfl, go, ?_, visitNode_checks⟩
    simp only [Traversal.ahead, Traversal.aheadAround, Includes.visits_cons_expanded expanded,
      visitNode_expanded expanded, Walk.descend_sources, back, List.append_assoc, List.cons_append]
  | @leave walk source outer rest around =>
    refine .inr ⟨rfl, ?_, rfl, Nat.lt_succ_self _⟩
    simp only [Traversal.ahead, Traversal.aheadAround, Includes.visits_nil]
    rfl

/-- With a node to visit, the only move is its visit, after a check. -/
theorem Step.checked (step : session.Step now next) (upcoming : now.upcoming?.isSome = true) :
    session.cancelled now.walk.checks = false ∧ next.walk.checks = now.walk.checks + 1 := by
  rcases step.ahead with ⟨visit, -, go, -, checks⟩ | ⟨finished, -⟩
  · exact ⟨go, checks⟩
  · rw [finished] at upcoming
    cases upcoming

/-- Moves lead on to where `behind` is left of the nodes of `source`, or to where they are interrupted. -/
def LeadsTo (session : Session) (now : Traversal) (source : SourceId) (behind : List Node)
    (around : List (SourceId × List Node)) : Except Interruption Walk → Prop
  | .ok done => session.Moves now ⟨done, source, behind, around⟩
  | .error interruption => ∃ last, session.Moves now last ∧ session.interruption? last = some interruption

private theorem LeadsTo.after {source : SourceId} {behind : List Node} {around : List (SourceId × List Node)}
    {outcome : Except Interruption Walk} (moves : session.Moves now next)
    (leads : session.LeadsTo next source behind around outcome) :
    session.LeadsTo now source behind around outcome := by
  cases outcome with
  | ok done => exact moves.trans leads
  | error interruption =>
    obtain ⟨last, more, interrupted⟩ := leads
    exact ⟨last, moves.trans more, interrupted⟩

/-- Visiting nodes is making moves, whatever comes behind them. -/
theorem walked_leadsTo {sources : OpenSources} {source : SourceId} {nodes : List Node} {walk : Walk}
    (open_ : walk.sources = sources) (behind : List Node) (around : List (SourceId × List Node)) :
    session.LeadsTo ⟨walk, source, nodes ++ behind, around⟩ source behind around
      (session.walked source nodes walk) := by
  induction sources, source, nodes using Includes.visits.induct session.includes
    generalizing walk behind around with
  | case1 sources source =>
    rw [walked_nil]
    exact .refl
  | case2 sources source node rest inner ih =>
    subst open_
    cases go : session.cancelled walk.checks with
    | true =>
      rw [walked_cancelled go]
      exact ⟨_, .refl, interruption?_stop go⟩
    | false =>
      cases admitted : walk.admits node with
      | false =>
        rw [walked_overflow go admitted]
        exact ⟨_, .refl, interruption?_overflow go admitted⟩
      | true =>
        cases expanded : session.includes.expanded? walk.sources source node with
        | none =>
          rw [walked_cons_plain go admitted expanded]
          have onward := ih (visitNode_samePlace expanded).sources behind around
          exact onward.after (.single (.visit go admitted expanded))
        | some pair =>
          obtain ⟨target, opened⟩ := pair
          rw [walked_cons_expanded go admitted expanded]
          have entered : (session.visitNode source walk node).sources = opened := by
            rw [visitNode_expanded expanded, Walk.descend_sources]
          have inside := inner target opened expanded entered [] ((source, rest ++ behind) :: around)
          rw [List.append_nil] at inside
          apply LeadsTo.after (.single (.enter go admitted expanded))
          rw [finished]
          cases outcome : session.walked target.source target.nodes (session.visitNode source walk node) with
          | error interruption =>
            rw [outcome] at inside
            exact inside
          | ok done =>
            rw [outcome] at inside
            dsimp only [Except.bind, Walk.finish]
            cases room : done.current.flushes with
            | false => exact ⟨_, inside, if_neg (Bool.eq_false_iff.mp room)⟩
            | true =>
              have back : (done.flush .endOfInput).ascend.sources = walk.sources := by
                rw [Walk.ascend_sources, Walk.flush_sources, walked_sources outcome, entered]
                exact OpenSources.exit_of_enter? (Includes.expanded?_eq_some expanded).2
              exact (ih back behind around).after (.tail inside (.leave room))

private theorem over_stuck {walk : Walk} {source : SourceId} : ¬session.Step ⟨walk, source, [], []⟩ next := by
  intro step
  cases step

/-- From wherever the traversal comes by it goes on to where it ends. -/
theorem Reaches.onward {root : Template} {last : Traversal} (reached : session.Reaches root now)
    (ended : session.Reaches root last) (stuck : ∀ next, ¬session.Step last next) :
    session.Moves now last := by
  rcases Relation.ReflTransGen.total_of_right_unique Step.deterministic reached ended with on | back
  · exact on
  · rw [(Relation.reflTransGen_iff_eq stuck).mp back]
    exact .refl

theorem root_leadsTo (session : Session) (root : Template) : session.LeadsTo (.start root) root.source [] []
    (session.walked root.source root.nodes (Walk.start root.source)) := by
  have leads : session.LeadsTo ⟨Walk.start root.source, root.source, root.nodes ++ [], []⟩ root.source [] []
      (session.walked root.source root.nodes (Walk.start root.source)) := walked_leadsTo rfl [] []
  rwa [List.append_nil] at leads

/-- Collecting makes moves until none is left, and gives what is there then. -/
theorem collect_moves (session : Session) (root : Template) :
    ∃ last, session.Reaches root last ∧ (∀ next, ¬session.Step last next) ∧
      session.collect root = session.outcome last := by
  have leads := session.root_leadsTo root
  rw [collect_eq_finished, finished]
  cases ended : session.walked root.source root.nodes (Walk.start root.source) with
  | ok done =>
    rw [ended] at leads
    refine ⟨_, leads, fun _ => over_stuck, ?_⟩
    simp only [outcome, interruption?, Except.bind, Walk.finish]
    cases done.current.flushes <;> rfl
  | error interruption =>
    rw [ended] at leads
    obtain ⟨last, moves, interrupted⟩ := leads
    refine ⟨last, moves, fun _ => stuck_of_interruption interrupted, ?_⟩
    rw [outcome, interrupted]
    rfl

theorem collect_of_stuck {root : Template} {last : Traversal} (reached : session.Reaches root last)
    (stuck : ∀ next, ¬session.Step last next) : session.collect root = session.outcome last := by
  obtain ⟨ending, reachedToo, stuckToo, collected⟩ := session.collect_moves root
  have same := (Relation.reflTransGen_iff_eq stuckToo).mp (reachedToo.onward reached stuck)
  rw [collected, same]

theorem collect_of_interruption {root : Template} {last : Traversal} {interruption : Interruption}
    (reached : session.Reaches root last) (interrupted : session.interruption? last = some interruption) :
    session.collect root = .error interruption := by
  rw [collect_of_stuck reached fun _ => stuck_of_interruption interrupted, outcome, interrupted]

end Session

end TextTemplate
