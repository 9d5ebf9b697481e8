import TextTemplate.Collect

/-! The visit of nodes without the record of open sources it carries along, one equation for each
kind of node. -/

namespace TextTemplate

/-- The end of a source: its last run is written out. -/
def Walk.finish (walk : Walk) : Except Interruption Walk :=
  if walk.current.flushes then .ok (walk.flush .endOfInput) else .error .overflow

namespace Session

def walked (session : Session) (source : SourceId) (nodes : List Node) (walk : Walk) :
    Except Interruption Walk :=
  (session.visit source nodes walk).map Subtype.val

def finished (session : Session) (source : SourceId) (nodes : List Node) (walk : Walk) :
    Except Interruption Walk :=
  (session.walked source nodes walk).bind Walk.finish

variable {session : Session} {source : SourceId} {rest : List Node} {walk : Walk}

theorem finished_eq_ok {nodes : List Node} {done : Walk} (ended : session.finished source nodes walk = .ok done) :
    ∃ middle, session.walked source nodes walk = .ok middle ∧ middle.current.flushes = true ∧
      done = middle.flush .endOfInput := by
  unfold finished at ended
  cases outcome : session.walked source nodes walk with
  | error interruption =>
    rw [outcome] at ended
    cases ended
  | ok middle =>
    rw [outcome] at ended
    cases room : middle.current.flushes with
    | false =>
      rw [Except.bind, Walk.finish, room] at ended
      cases ended
    | true =>
      rw [Except.bind, Walk.finish, room] at ended
      exact ⟨middle, rfl, room, (Except.ok.inj ended).symm⟩

theorem walked_nil : session.walked source [] walk = .ok walk := by
  rw [walked, visit]
  rfl

theorem walked_cancelled {node : Node} (stop : session.cancelled walk.checks = true) :
    session.walked source (node :: rest) walk = .error (.aborted (walk.checks + 1)) := by
  cases node <;> rw [walked, visit, if_pos stop] <;> rfl

private theorem map_val (before after : Walk) (same : after.sources = before.sources)
    (outcome : Except Interruption { done : Walk // done.sources = after.sources }) :
    (outcome.map fun done => (⟨done.1, done.2.trans same⟩ :
      { done : Walk // done.sources = before.sources })).map Subtype.val = outcome.map Subtype.val := by
  cases outcome <;> rfl

private theorem passes {node : Node} (admitted : walk.admits node = true) : ¬(!walk.admits node) = true := by
  rw [admitted]
  exact Bool.false_ne_true

section
variable (go : session.cancelled walk.checks = false)
include go

theorem walked_overflow {node : Node} (refused : walk.admits node = false) :
    session.walked source (node :: rest) walk = .error .overflow := by
  have barred : (!walk.admits node) = true := by rw [refused]; rfl
  cases node <;> rw [walked, visit, if_neg (Bool.eq_false_iff.mp go), if_pos barred] <;> rfl

theorem walked_text (literal : LiteralText) : session.walked source (.text literal :: rest) walk =
    session.walked source rest (walk.check.mapCurrent (·.consumeText literal)) := by
  rw [walked, visit, if_neg (Bool.eq_false_iff.mp go), if_neg (passes rfl)]
  exact map_val walk (walk.check.mapCurrent (·.consumeText literal)) rfl _

theorem walked_directive {given : Directive} (admitted : walk.admits (.directive given) = true) :
    session.walked source (.directive given :: rest) walk =
      session.walked source rest
        ((walk.check.flush .fragment).visitDirective session.macros source given) := by
  rw [walked, visit, if_neg (Bool.eq_false_iff.mp go), if_neg (passes admitted)]
  exact map_val walk ((walk.check.flush .fragment).visitDirective session.macros source given)
    (Walk.visitDirective_sources ..) _

theorem walked_code {fragment : CodeFragment} (admitted : walk.admits (.code fragment) = true) :
    session.walked source (.code fragment :: rest) walk =
      session.walked source rest ((walk.check.flush .fragment).visitCode source fragment) := by
  rw [walked, visit, if_neg (Bool.eq_false_iff.mp go), if_neg (passes admitted)]
  exact map_val walk ((walk.check.flush .fragment).visitCode source fragment)
    (Walk.visitCode_sources ..) _

variable {inclusion : Inclusion} (admitted : walk.admits (.inclusion inclusion) = true)
include admitted

theorem walked_unresolved (decided : session.expansion walk.sources source inclusion = .unresolved) :
    session.walked source (.inclusion inclusion :: rest) walk =
      session.walked source rest ((walk.check.flush .fragment).complain
        (.unresolved inclusion.file) source inclusion.blameSpan) := by
  rw [walked, visit, if_neg (Bool.eq_false_iff.mp go), if_neg (passes admitted)]
  simp only
  split
  · rfl
  · rename_i cyclic
    cases decided.symm.trans cyclic
  · rename_i expand
    cases decided.symm.trans expand

theorem walked_cyclic {target : Template}
    (decided : session.expansion walk.sources source inclusion = .cyclic target) :
    session.walked source (.inclusion inclusion :: rest) walk =
      session.walked source rest ((walk.check.flush .fragment).complain
        (.cyclic target.source) source inclusion.blameSpan) := by
  rw [walked, visit, if_neg (Bool.eq_false_iff.mp go), if_neg (passes admitted)]
  simp only
  split
  · rename_i unresolved
    cases decided.symm.trans unresolved
  · rename_i cyclic
    cases decided.symm.trans cyclic
    rfl
  · rename_i expand
    cases decided.symm.trans expand

theorem walked_expand {target : Template} {opened : OpenSources}
    (decided : session.expansion walk.sources source inclusion = .expand target opened) :
    session.walked source (.inclusion inclusion :: rest) walk =
      (session.finished target.source target.nodes
        ((walk.check.flush .fragment).descend opened target.source)).bind
        fun inner => session.walked source rest inner.ascend := by
  rw [walked, visit, if_neg (Bool.eq_false_iff.mp go), if_neg (passes admitted)]
  simp only
  split
  · rename_i unresolved
    cases decided.symm.trans unresolved
  · rename_i cyclic
    cases decided.symm.trans cyclic
  · rename_i expand
    cases decided.symm.trans expand
    rw [finished, walked]
    cases session.visit target.source target.nodes
        ((walk.check.flush .fragment).descend opened target.source) with
    | error interruption => rfl
    | ok inner =>
      dsimp only [Except.map, Except.bind, Walk.finish]
      cases inner.1.current.flushes with
      | true => exact map_val _ _ (ascend_sources_of_expand decided inner.2) _
      | false => rfl

end

theorem collect_eq_finished (root : Template) : session.collect root =
    (session.finished root.source root.nodes (Walk.start root.source)).map fun finished =>
      { frame := finished.current
        problems := finished.problems
        references := finished.references
        outputExtension? := finished.outputExtension?
        checks := finished.checks } := by
  rw [collect, finished, walked]
  cases session.visit root.source root.nodes (Walk.start root.source) with
  | error interruption => rfl
  | ok done =>
    dsimp only [Except.map, Except.bind, Walk.finish]
    cases done.1.current.flushes <;> rfl

end Session

end TextTemplate
