import TextTemplate.Collect.Includes
import TextTemplate.Collect.Walk

/-!
Collecting a template: one walk through its nodes, depth first, every include expanded in
place. The cancellation signal is checked before each node, and nothing is done that takes a sum
of offsets that overflows. The walk ends because an include is expanded only while its source is
not open, and the open sources are among finitely many.
-/

namespace TextTemplate

structure Session where
  includes : Includes
  /-- Values for the names of assemblies. -/
  macros : Macros
  /-- Whether the check of that number, counted from zero, asks to stop. -/
  cancelled : Nat → Bool

/-- What ends a walk before its last node. -/
inductive Interruption where
  /-- The walk was cancelled at its last check. -/
  | aborted (checks : Nat)
  | overflow
  deriving DecidableEq, Repr, Inhabited

structure Collected where
  frame : Frame
  problems : List Problem
  references : List AssemblyReference
  outputExtension? : Option String
  checks : Nat
  deriving DecidableEq, Repr, Inhabited

namespace Includes

def unopened (includes : Includes) (sources : OpenSources) : Nat :=
  includes.templates.countP fun template => !sources.isOpen template.source

theorem unopened_lt {includes : Includes} {sources opened : OpenSources} {target : Template}
    (known : target ∈ includes.templates) (entered : sources.enter? target.source = some opened) :
    includes.unopened opened < includes.unopened sources := by
  obtain ⟨closed, rfl⟩ := OpenSources.enter?_eq_some_iff.mp entered
  have narrower : ∀ templates : List Template,
      templates.countP (fun template =>
          !(OpenSources.mk (target.source :: sources.chain)).isOpen template.source) ≤
        templates.countP fun template => !sources.isOpen template.source := fun templates =>
    List.countP_mono_left fun template _ => by simp [OpenSources.isOpen]
  obtain ⟨before, after, split⟩ := List.append_of_mem known
  have first := narrower before
  have second := narrower after
  have now : (OpenSources.mk (target.source :: sources.chain)).isOpen target.source = true := by
    simp [OpenSources.isOpen]
  simp only [unopened, split, List.countP_append, List.countP_cons, now, closed]
  simp only [Bool.not_true, Bool.not_false, if_true, Bool.false_eq_true, if_false]
  omega

end Includes

inductive Expansion where
  | unresolved
  | cyclic (target : Template)
  /-- The target is expanded, with the sources open inside of it. -/
  | expand (target : Template) (opened : OpenSources)

namespace Session

/-- Decides on an include written in `source` while `sources` are open. -/
def expansion (session : Session) (sources : OpenSources) (source : SourceId)
    (inclusion : Inclusion) : Expansion :=
  match session.includes.resolve? source inclusion with
  | none => .unresolved
  | some target =>
    match sources.enter? target.source with
    | none => .cyclic target
    | some opened => .expand target opened

theorem expansion_eq_expand {session : Session} {sources opened : OpenSources}
    {source : SourceId} {inclusion : Inclusion} {target : Template}
    (decided : session.expansion sources source inclusion = .expand target opened) :
    session.includes.resolve? source inclusion = some target ∧
      sources.enter? target.source = some opened := by
  unfold expansion at decided
  split at decided
  · cases decided
  · rename_i resolved found
    split at decided
    · cases decided
    · rename_i entered
      cases decided
      exact ⟨found, entered⟩

theorem unopened_lt_of_expand {session : Session} {sources opened : OpenSources}
    {source : SourceId} {inclusion : Inclusion} {target : Template}
    (decided : session.expansion sources source inclusion = .expand target opened) :
    session.includes.unopened opened < session.includes.unopened sources :=
  have ⟨found, entered⟩ := expansion_eq_expand decided
  Includes.unopened_lt (session.includes.resolve?_mem found) entered

theorem ascend_sources_of_expand {session : Session} {source : SourceId} {inclusion : Inclusion}
    {target : Template} {opened : OpenSources} {walk inner : Walk}
    (decided : session.expansion walk.sources source inclusion = .expand target opened)
    (same : inner.sources = opened) :
    (inner.flush .endOfInput).ascend.sources = walk.sources := by
  rw [Walk.ascend_sources, Walk.flush_sources, same]
  exact OpenSources.exit_of_enter? (expansion_eq_expand decided).2

/-- Visits nodes of the innermost open source. When they are done, the same sources are open as
before. -/
def visit (session : Session) (source : SourceId) (nodes : List Node) (walk : Walk) :
    Except Interruption { done : Walk // done.sources = walk.sources } :=
  match nodes with
  | [] => .ok ⟨walk, rfl⟩
  | node :: rest =>
    if session.cancelled walk.checks then
      .error (.aborted (walk.checks + 1))
    else if !walk.admits node then
      .error .overflow
    else
      match node with
      | .text literal =>
        (visit session source rest (walk.check.mapCurrent (·.consumeText literal))).map
          fun done => ⟨done.1, by simpa using done.2⟩
      | .directive given =>
        (visit session source rest
          ((walk.check.flush .fragment).visitDirective session.macros source given)).map
          fun done => ⟨done.1, by simpa using done.2⟩
      | .code fragment =>
        (visit session source rest
          ((walk.check.flush .fragment).visitCode source fragment)).map
          fun done => ⟨done.1, by simpa using done.2⟩
      | .inclusion inclusion =>
        let flushed := walk.check.flush .fragment
        match decided : session.expansion walk.sources source inclusion with
        | .unresolved =>
          visit session source rest
            (flushed.complain (.unresolved inclusion.file) source inclusion.blameSpan)
        | .cyclic target =>
          visit session source rest
            (flushed.complain (.cyclic target.source) source inclusion.blameSpan)
        | .expand target opened =>
          match visit session target.source target.nodes
            (flushed.descend opened target.source) with
          | .error interruption => .error interruption
          | .ok inner =>
            if inner.1.current.flushes then
              (visit session source rest (inner.1.flush .endOfInput).ascend).map
                fun done => ⟨done.1, done.2.trans (ascend_sources_of_expand decided inner.2)⟩
            else
              .error .overflow
termination_by (session.includes.unopened walk.sources, nodes.length)
decreasing_by
  · exact Prod.Lex.right _ (Nat.lt_succ_self _)
  · rw [Walk.visitDirective_sources]
    exact Prod.Lex.right _ (Nat.lt_succ_self _)
  · rw [Walk.visitCode_sources]
    exact Prod.Lex.right _ (Nat.lt_succ_self _)
  · exact Prod.Lex.right _ (Nat.lt_succ_self _)
  · exact Prod.Lex.right _ (Nat.lt_succ_self _)
  · exact Prod.Lex.left _ _ (unopened_lt_of_expand decided)
  · rw [ascend_sources_of_expand decided inner.2]
    exact Prod.Lex.right _ (Nat.lt_succ_self _)

def collect (session : Session) (root : Template) : Except Interruption Collected :=
  match session.visit root.source root.nodes (Walk.start root.source) with
  | .error interruption => .error interruption
  | .ok done =>
    if done.1.current.flushes then
      let finished := done.1.flush .endOfInput
      .ok
        { frame := finished.current
          problems := finished.problems
          references := finished.references
          outputExtension? := finished.outputExtension?
          checks := finished.checks }
    else
      .error .overflow

end Session

end TextTemplate
