import TextTemplate.Proofs.OpenIncludes

/-! The stack of open sources beside what else is pushed and popped with it. Wherever a traversal comes
by, the sources are those of the templates being expanded, from the root inwards; there is one frame for
each of them and one include less. An include that is done with leaves all of this as it found it. -/

namespace TextTemplate

/-- The templates `trees` being expanded, innermost first, and what is left to visit of each of them and
of the root: every one is the target of the include that was visited last in the one around it. -/
inductive Underway (includes : Includes) (root : Template) :
    List Template → List (SourceId × List Node) → Prop where
  | root {nodes : List Node} (left : nodes <:+ root.nodes) : Underway includes root [] [(root.source, nodes)]
  | target {trees : List Template} {levels : List (SourceId × List Node)} {source : SourceId}
      {inclusion : Inclusion} {rest nodes : List Node} {target : Template}
      (outer : Underway includes root trees ((source, .inclusion inclusion :: rest) :: levels))
      (resolved : includes.resolve? source inclusion = some target) (left : nodes <:+ target.nodes) :
      Underway includes root (target :: trees) ((target.source, nodes) :: (source, rest) :: levels)

namespace Underway
variable {includes : Includes} {root : Template} {trees : List Template} {levels : List (SourceId × List Node)}
  {source : SourceId} {node : Node} {rest : List Node}

theorem visited (underway : Underway includes root trees ((source, node :: rest) :: levels)) :
    Underway includes root trees ((source, rest) :: levels) := by
  cases underway with
  | root left => exact .root ((List.suffix_cons node rest).trans left)
  | target outer resolved left => exact .target outer resolved ((List.suffix_cons node rest).trans left)

private theorem entered {sources opened : OpenSources} {target : Template}
    (underway : Underway includes root trees ((source, node :: rest) :: levels))
    (expanded : includes.expanded? sources source node = some (target, opened)) :
    Underway includes root (target :: trees) ((target.source, target.nodes) :: (source, rest) :: levels) := by
  cases node with
  | inclusion inclusion =>
    obtain ⟨found, resolved, opens⟩ := Option.bind_eq_some_iff.mp expanded
    obtain ⟨chain, -, same⟩ := Option.map_eq_some_iff.mp opens
    cases same
    exact .target underway resolved (List.suffix_refl _)
  | directive given => cases expanded
  | text literal => cases expanded
  | code fragment => cases expanded

private theorem left {outer : SourceId}
    (underway : Underway includes root trees ((source, []) :: (outer, rest) :: levels)) :
    ∃ target others, trees = target :: others ∧ target.source = source ∧
      Underway includes root others ((outer, rest) :: levels) := by
  cases underway with
  | target around resolved left => exact ⟨_, _, rfl, rfl, around.visited⟩

private theorem sources (underway : Underway includes root trees levels) :
    levels.map Prod.fst = trees.map Template.source ++ [root.source] := by
  induction underway with
  | root left => rfl
  | target outer resolved left ih => exact congrArg (_ :: ·) ih

end Underway

def Walk.Framed (walk : Walk) : Prop :=
  walk.sources.chain = (walk.current :: walk.parents).map Frame.source

private theorem Walk.SamePlace.framed {after before : Walk} (same : after.SamePlace before) (framed : before.Framed) :
    after.Framed := by
  rw [Framed, same.sources, List.map_cons, same.source, same.parents]
  exact framed

namespace Session
variable {session : Session} {root : Template} {now next : Traversal}

private theorem Step.underway (step : session.Step now next) {trees : List Template}
    (underway : Underway session.includes root trees ((now.source, now.nodes) :: now.around)) :
    ∃ trees, Underway session.includes root trees ((next.source, next.nodes) :: next.around) := by
  cases step with
  | visit => exact ⟨_, underway.visited⟩
  | enter _ _ expanded => exact ⟨_, underway.entered expanded⟩
  | leave =>
    obtain ⟨_, others, -, -, around⟩ := underway.left
    exact ⟨others, around⟩

private theorem Reaches.underway (reached : session.Reaches root now) :
    ∃ trees, Underway session.includes root trees ((now.source, now.nodes) :: now.around) := by
  induction reached with
  | refl => exact ⟨[], .root (List.suffix_refl _)⟩
  | tail _ step ih =>
    obtain ⟨trees, underway⟩ := ih
    exact step.underway underway

private theorem Step.framed (step : session.Step now next) (nested : now.Nested session.includes root)
    (framed : now.walk.Framed) : next.walk.Framed := by
  cases step with
  | visit _ _ plain => exact (visitNode_samePlace plain).framed framed
  | @enter walk source node rest around target opened go admitted expanded =>
    obtain ⟨-, rfl⟩ := OpenSources.enter?_eq_some_iff.mp (Includes.expanded?_eq_some expanded).2
    rw [visitNode_expanded expanded]
    exact congrArg (target.source :: ·) framed
  | @leave walk source outer rest around =>
    have chain : walk.sources.chain = source :: outer :: around.map Prod.fst := nested.chain
    have frames : walk.sources.chain = walk.current.source :: walk.parents.map Frame.source := framed
    cases inside : walk.parents with
    | nil =>
      rw [chain, inside] at frames
      cases frames
    | cons parent more =>
      have alone : (walk.flush .endOfInput).ascend.sources.chain = (walk.parents).map Frame.source :=
        congrArg List.tail frames
      rw [Walk.Framed, alone, inside]
      simp only [Walk.ascend, Walk.flush, Walk.mapCurrent, inside, Frame.absorb_eq]
      rfl

private theorem Reaches.framed (reached : session.Reaches root now) : now.walk.Framed := by
  induction reached with
  | refl => rfl
  | tail earlier step ih => exact step.framed (Reaches.nested earlier) ih

/-- Visiting nodes to their end leads back to the same place, whatever was opened on the way. -/
theorem walked_samePlace {sources : OpenSources} {source : SourceId} {nodes : List Node} {walk done : Walk}
    (open_ : walk.sources = sources) (visited : session.walked source nodes walk = .ok done) :
    done.SamePlace walk := by
  induction sources, source, nodes using Includes.visits.induct session.includes generalizing walk done with
  | case1 sources source =>
    rw [walked_nil] at visited
    cases visited
    exact ⟨rfl, rfl, rfl, rfl⟩
  | case2 sources source node rest inner ih =>
    subst open_
    cases go : session.cancelled walk.checks with
    | true =>
      rw [walked_cancelled go] at visited
      cases visited
    | false =>
      cases admitted : walk.admits node with
      | false =>
        rw [walked_overflow go admitted] at visited
        cases visited
      | true =>
        cases expanded : session.includes.expanded? walk.sources source node with
        | none =>
          rw [walked_cons_plain go admitted expanded] at visited
          have place := visitNode_samePlace expanded
          exact (ih place.sources visited).trans place
        | some pair =>
          obtain ⟨target, opened⟩ := pair
          rw [walked_cons_expanded go admitted expanded, visitNode_expanded expanded] at visited
          cases ended : session.finished target.source target.nodes
              ((walk.check.flush .fragment).descend opened target.source) with
          | error interruption =>
            rw [ended] at visited
            cases visited
          | ok last =>
            rw [ended] at visited
            obtain ⟨middle, inside, -, rfl⟩ := finished_eq_ok ended
            have same := inner target opened expanded rfl inside
            have back : (middle.flush .endOfInput).ascend.SamePlace (walk.check.flush .fragment) :=
              Walk.ascend_samePlace (walk.check.flush .fragment) (Includes.expanded?_eq_some expanded).2
                ⟨same.1, same.2, same.3, same.4⟩
            exact (ih back.sources visited).trans (back.trans ⟨rfl, rfl, rfl, rfl⟩)

/-- The visit of one node with all that is expanded in its place: moves lead on to the nodes behind it,
unless they are interrupted in between. -/
def Passes (session : Session) (now : Traversal) (rest : List Node) : Except Interruption Walk → Prop
  | .ok after => session.Moves now ⟨after, now.source, rest, now.around⟩ ∧ after.SamePlace now.walk
  | .error interruption => ∃ last, session.Moves now last ∧ session.interruption? last = some interruption

private theorem passes_node {node : Node} {rest : List Node} (coming : now.nodes = node :: rest) :
    session.Passes now rest (session.walked now.source [node] now.walk) := by
  obtain ⟨walk, source, nodes, around⟩ := now
  cases coming
  have leads : session.LeadsTo ⟨walk, source, [node] ++ rest, around⟩ source rest around
      (session.walked source [node] walk) := walked_leadsTo rfl rest around
  dsimp only
  cases outcome : session.walked source [node] walk with
  | error interruption =>
    rw [outcome] at leads
    exact leads
  | ok after =>
    rw [outcome] at leads
    exact ⟨leads, walked_samePlace rfl outcome⟩

private theorem Step.closes (step : session.Step now next) (nested : now.Nested session.includes root)
    (finished : now.nodes = []) : now.walk.sources.chain = now.source :: next.walk.sources.chain := by
  cases step with
  | visit => cases finished
  | enter => cases finished
  | @leave walk source outer rest around =>
    have chain : walk.sources.chain = source :: outer :: around.map Prod.fst := nested.chain
    show walk.sources.chain = source :: walk.sources.chain.tail
    rw [chain]
    rfl

/-- Collecting that completes ends where only the root is open, and nothing once that is closed. -/
theorem collect_closes {collected : Collected} (done : session.collect root = .ok collected) :
    ∃ last, session.Reaches root last ∧ collected = last.collected ∧
      last.walk.sources.chain = [root.source] ∧ last.walk.sources.exit.chain = [] ∧
      last.walk.depth = 0 ∧ last.walk.parents = [] := by
  have leads := session.root_leadsTo root
  rw [collect_eq_finished] at done
  cases ended : session.finished root.source root.nodes (Walk.start root.source) with
  | error interruption =>
    rw [ended] at done
    cases done
  | ok last =>
    rw [ended] at done
    cases done
    obtain ⟨middle, outcome, -, rfl⟩ := finished_eq_ok ended
    rw [outcome] at leads
    have same := walked_samePlace rfl outcome
    have chain : middle.sources.chain = [root.source] := congrArg OpenSources.chain same.sources
    exact ⟨_, leads, rfl, chain, congrArg List.tail chain, same.depth, same.parents⟩

/-- At every place a traversal comes by, cancelled or not, the open sources are the root's and, inwards,
those of the templates being expanded, none of them twice. There is one include less than there are open
sources, a frame around the current one for each include, and the current frame is that of the innermost
source. A source is closed only while it is the innermost one. An include that is done with, whether
it was expanded or not, leaves the open sources, the number of includes and the frames around as it found
them; and when all is collected, closing the root leaves nothing open. -/
theorem sources_stacked (session : Session) (root : Template) :
    (∀ now, session.Reaches root now →
      (∃ trees, Underway session.includes root trees ((now.source, now.nodes) :: now.around) ∧
        now.walk.sources.chain.reverse = root.source :: (trees.map Template.source).reverse) ∧
      now.walk.sources.chain.Nodup ∧
      now.walk.sources.depth = now.walk.depth + 1 ∧ now.walk.depth = now.walk.parents.length ∧
      now.walk.sources.chain = (now.walk.current :: now.walk.parents).map Frame.source ∧
      (∀ next, now.nodes = [] → session.Step now next →
        now.walk.sources.chain = now.source :: next.walk.sources.chain) ∧
      ∀ inclusion rest, now.nodes = .inclusion inclusion :: rest →
        session.Passes now rest (session.walked now.source [.inclusion inclusion] now.walk)) ∧
    ∀ collected, session.collect root = .ok collected → ∃ last, session.Reaches root last ∧
      collected = last.collected ∧ last.walk.sources.chain = [root.source] ∧
      last.walk.sources.exit.chain = [] ∧ last.walk.depth = 0 ∧ last.walk.parents = [] := by
  constructor
  · intro now reached
    have nested := reached.nested
    have framed := reached.framed
    obtain ⟨trees, underway⟩ := reached.underway
    have chain : now.walk.sources.chain = trees.map Template.source ++ [root.source] :=
      nested.chain.trans underway.sources
    have opened : now.walk.sources.depth = now.walk.depth + 1 := by
      rw [OpenSources.depth, nested.chain, nested.depth, List.length_cons, List.length_map]
    refine ⟨⟨trees, underway, ?_⟩, nested.distinct, opened, ?_, framed, ?_, ?_⟩
    · rw [chain, List.reverse_append]
      rfl
    · rw [OpenSources.depth, framed, List.length_map, List.length_cons] at opened
      omega
    · intro next finished step
      exact step.closes nested finished
    · intro inclusion rest coming
      exact passes_node coming
  · intro collected done
    exact collect_closes done

end Session

end TextTemplate
