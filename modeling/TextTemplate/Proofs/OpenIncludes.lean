import Mathlib.Data.List.Dedup
import TextTemplate.Proofs.Traversal

/-! Includes while they are open. Where a traversal comes by, the open sources are those of the
nodes under way, none of them twice; that bounds how deep includes nest. The visit of an include
opens its target or leaves one problem, and which of them is up to the sources open at that time,
so an include that is visited again may fare differently. -/

namespace TextTemplate

namespace OpenSources
variable {sources : OpenSources} {source : SourceId}

theorem enter?_eq_none (inside : source ∈ sources.chain) : sources.enter? source = none :=
  if_pos (List.contains_iff_mem.mpr inside)

end OpenSources

theorem Inclusion.blameSpan_eq (inclusion : Inclusion) : inclusion.blameSpan =
    if inclusion.fileSpan.stop ≤ inclusion.fileSpan.start then inclusion.span else inclusion.fileSpan := by
  simp only [blameSpan, Span.isEmpty, decide_eq_true_eq]

namespace Traversal

/-- The open sources are those of the nodes under way, each of them once, and belong to the root
or to a template that includes may lead to. -/
structure Nested (includes : Includes) (root : Template) (now : Traversal) : Prop where
  chain : now.walk.sources.chain = now.source :: now.around.map Prod.fst
  distinct : now.walk.sources.chain.Nodup
  depth : now.walk.depth = now.around.length
  known : now.walk.sources.chain ⊆ (root :: includes.templates).map Template.source

private theorem nested_start (includes : Includes) (root : Template) : (start root).Nested includes root where
  chain := rfl
  distinct := List.nodup_singleton _
  depth := rfl
  known := by
    intro source member
    cases List.mem_singleton.mp member
    exact List.mem_cons_self

namespace Nested
variable {includes : Includes} {root : Template} {now : Traversal}

end Nested

end Traversal

namespace Session
variable {session : Session} {root : Template} {now next : Traversal}

private theorem Step.nested (step : session.Step now next) (nested : now.Nested session.includes root) :
    next.Nested session.includes root := by
  cases step with
  | visit go admitted plain =>
    have place := visitNode_samePlace plain
    exact ⟨place.sources ▸ nested.chain, place.sources ▸ nested.distinct,
      place.depth.trans nested.depth, place.sources ▸ nested.known⟩
  | @enter walk source node rest around target opened go admitted expanded =>
    obtain ⟨known, entered⟩ := Includes.expanded?_eq_some expanded
    obtain ⟨-, rfl⟩ := OpenSources.enter?_eq_some_iff.mp entered
    rw [visitNode_expanded expanded]
    refine ⟨congrArg (target.source :: ·) nested.chain, ?_, congrArg (· + 1) nested.depth, ?_⟩
    · refine List.nodup_cons.mpr ⟨fun inside => ?_, nested.distinct⟩
      cases entered.symm.trans (OpenSources.enter?_eq_none inside)
    · refine List.cons_subset.mpr ⟨?_, nested.known⟩
      exact List.mem_cons_of_mem _ (List.mem_map_of_mem known)
  | @leave walk source outer rest around =>
    refine ⟨congrArg List.tail nested.chain, nested.distinct.tail, ?_, ?_⟩
    · have depth : walk.depth = around.length + 1 := nested.depth
      show walk.depth - 1 = around.length
      omega
    · exact fun _ member => nested.known (List.mem_of_mem_tail member)

theorem Reaches.nested (reached : session.Reaches root now) : now.Nested session.includes root := by
  induction reached with
  | refl => exact Traversal.nested_start session.includes root
  | tail _ step ih => exact step.nested ih

private theorem visitNode_problems (walk : Walk) (source : SourceId) (node : Node) :
    walk.problems <+: (session.visitNode source walk node).problems := by
  cases node with
  | text literal => exact List.prefix_rfl
  | directive given =>
    obtain ⟨effect, -, visited⟩ :=
      Walk.visitDirective_effect (walk.check.flush .fragment) source given session.macros
    rw [visitNode, visited _ (.refl _)]
    exact List.prefix_append _ _
  | code fragment =>
    rw [visitNode, Walk.visitCode_effect _ source fragment (.refl _) rfl]
    exact List.prefix_append _ _
  | inclusion inclusion =>
    simp only [visitNode]
    cases session.expansion walk.sources source inclusion with
    | unresolved => exact List.prefix_append _ _
    | cyclic target => exact List.prefix_append _ _
    | expand target opened => exact List.prefix_rfl

private theorem Step.problems (step : session.Step now next) : now.walk.problems <+: next.walk.problems := by
  cases step with
  | visit => exact visitNode_problems ..
  | enter => exact visitNode_problems ..
  | leave => exact List.prefix_rfl

private theorem Step.leaves (step : session.Step now next) (finished : now.nodes = []) :
    next.walk.problems = now.walk.problems := by
  cases step with
  | visit => cases finished
  | enter => cases finished
  | leave => rfl

private theorem Moves.problems (moves : session.Moves now next) : now.walk.problems <+: next.walk.problems := by
  induction moves with
  | refl => exact List.prefix_rfl
  | tail _ step ih => exact ih.trans step.problems

/-- What is recorded along the way is among what is collected. -/
theorem Reaches.problems {collected : Collected} (reached : session.Reaches root now)
    (done : session.collect root = .ok collected) : now.walk.problems <+: collected.problems := by
  obtain ⟨last, ended, stuck, outcome⟩ := session.collect_moves root
  rw [done, Session.outcome] at outcome
  cases interrupted : session.interruption? last with
  | some interruption =>
    rw [interrupted] at outcome
    cases outcome
  | none =>
    rw [interrupted] at outcome
    cases outcome
    exact Moves.problems (reached.onward ended stuck)

end Session

end TextTemplate
