import TextTemplate.Bundle
import TextTemplate.Proofs.Effects
import TextTemplate.Proofs.Encounters
import TextTemplate.Proofs.TakenPlaces
import TextTemplate.Proofs.Visits

/-! Collecting with a frame for every open include comes to the same as appending all encounters
to one frame. The two walks are kept side by side: the one frame is what the frames of the other
come to when the open includes are closed, from the inside out. -/

namespace TextTemplate

namespace Walk

def flattened (walk : Walk) : Frame :=
  walk.parents.foldl (fun inner outer => outer.absorb inner) walk.current

private theorem absorbed_change {change : Frame → Frame} (adds : Frame.Adds change)
    (parents : List Frame) (current : Frame) (flagged : current.Flagged)
    (around : ∀ parent ∈ parents, parent.Flagged) :
    parents.foldl (fun inner outer => outer.absorb inner) (change current) =
      change (parents.foldl (fun inner outer => outer.absorb inner) current) := by
  induction parents generalizing current with
  | nil => rfl
  | cons parent rest ih =>
    rw [List.foldl_cons, List.foldl_cons, adds.absorbed _ _ flagged]
    apply ih
    · exact (around parent List.mem_cons_self).absorb
    · exact fun outer member => around outer (List.mem_cons_of_mem _ member)

private theorem absorbed_settled (parents : List Frame) (current : Frame) :
    (parents.foldl (fun inner outer => outer.absorb inner) current.settled).settled =
      (parents.foldl (fun inner outer => outer.absorb inner) current).settled := by
  cases parents with
  | nil => rfl
  | cons parent rest => rw [List.foldl_cons, List.foldl_cons, Frame.absorb_settled]

/-- The walk `flat`, whose only frame has no text held back, has what `walk` has, but for the
text nodes `held` that `walk` still holds back. -/
structure Mirrors (held : List LiteralText) (flat walk : Walk) : Prop where
  frame : flat.current = walk.flattened.settled
  pending : walk.current.literal.segments = (held.foldl LiteralState.consume .atStart).segments
  checks : walk.checks = flat.checks + held.length
  alike : flat.Alike walk
  problems : flat.problems = walk.problems
  references : flat.references = walk.references
  flagged : walk.current.Flagged
  around : ∀ parent ∈ walk.parents, parent.Flagged

private theorem mirrors_start (root : SourceId) : Mirrors [] (Walk.start root) (Walk.start root) where
  frame := rfl
  pending := rfl
  checks := rfl
  alike := .refl _
  problems := rfl
  references := rfl
  flagged := Frame.flagged_new root
  around := List.forall_mem_nil _

namespace Mirrors
variable {held : List LiteralText} {flat walk : Walk}

theorem adding (mirrors : Mirrors held flat walk) {change : Frame → Frame} (adds : Frame.Adds change) :
    Mirrors held (flat.mapCurrent change) (walk.mapCurrent change) where
  frame := by
    show change flat.current = _
    rw [mirrors.frame, ← adds.settled]
    exact congrArg Frame.settled (absorbed_change adds _ _ mirrors.flagged mirrors.around).symm
  pending := (congrArg LiteralState.segments (adds.literal walk.current)).trans mirrors.pending
  checks := mirrors.checks
  alike := ⟨mirrors.alike.1, mirrors.alike.2, mirrors.alike.3⟩
  problems := mirrors.problems
  references := mirrors.references
  flagged := adds.flagged _ mirrors.flagged
  around := mirrors.around

theorem undergo (mirrors : Mirrors held flat walk) (effect : Effect) :
    Mirrors held (flat.undergo effect) (walk.undergo effect) :=
  have added := mirrors.adding effect.adds
  { frame := added.frame
    pending := added.pending
    checks := mirrors.checks
    alike := ⟨rfl, rfl, rfl⟩
    problems := congrArg (· ++ effect.problems) mirrors.problems
    references := congrArg (· ++ effect.references) mirrors.references
    flagged := added.flagged
    around := mirrors.around }

private theorem check (mirrors : Mirrors held flat walk) : Mirrors held flat.check walk.check where
  frame := mirrors.frame
  pending := mirrors.pending
  checks := by
    show walk.checks + 1 = flat.checks + 1 + held.length
    rw [mirrors.checks]
    omega
  alike := ⟨mirrors.alike.1, mirrors.alike.2, mirrors.alike.3⟩
  problems := mirrors.problems
  references := mirrors.references
  flagged := mirrors.flagged
  around := mirrors.around

private theorem visitDirective (mirrors : Mirrors held flat walk) (macros : Macros) (source : SourceId)
    (given : Directive) :
    Mirrors held (flat.visitDirective macros source given) (walk.visitDirective macros source given) := by
  obtain ⟨effect, -, visited⟩ := visitDirective_effect walk source given macros
  rw [visited flat mirrors.alike, visited walk (.refl walk)]
  exact mirrors.undergo effect

private theorem visitCode (mirrors : Mirrors held flat walk) (source : SourceId) (fragment : CodeFragment) :
    Mirrors held ({ flat with depth := walk.depth }.visitCode source fragment)
      (walk.visitCode source fragment) := by
  have leveled : Mirrors held { flat with depth := walk.depth } walk :=
    ⟨mirrors.1, mirrors.2, mirrors.3, ⟨mirrors.alike.1, mirrors.alike.2, mirrors.alike.3⟩,
      mirrors.5, mirrors.6, mirrors.7, mirrors.8⟩
  rw [visitCode_effect walk source fragment leveled.alike rfl,
    visitCode_effect walk source fragment (.refl walk) rfl]
  exact leveled.undergo _

private theorem complain (mirrors : Mirrors held flat walk) (complaint : Complaint) (source : SourceId)
    (span : Span) : Mirrors held (flat.complain complaint source span) (walk.complain complaint source span) := by
  rw [complain_effect walk source complaint span mirrors.alike,
    complain_effect walk source complaint span (.refl walk)]
  exact mirrors.undergo _

theorem holding (mirrors : Mirrors held flat walk) (state : LiteralState) :
    flat.current = (walk.mapCurrent fun frame => { frame with literal := state }).flattened.settled := by
  rw [mirrors.frame]
  exact (absorbed_settled walk.parents walk.current).symm.trans
    (absorbed_settled walk.parents { walk.current with literal := state })

private theorem text (mirrors : Mirrors held flat walk) (literal : LiteralText) :
    Mirrors (held ++ [literal]) flat (walk.check.mapCurrent (·.consumeText literal)) where
  frame := mirrors.holding _
  pending := by
    show (walk.current.literal.consume literal).segments = _
    rw [List.foldl_append]
    simp only [List.foldl_cons, List.foldl_nil, LiteralState.consume, mirrors.pending]
  checks := by
    show walk.checks + 1 = flat.checks + (held ++ [literal]).length
    rw [mirrors.checks, List.length_append, List.length_singleton]
    omega
  alike := ⟨mirrors.alike.1, mirrors.alike.2, mirrors.alike.3⟩
  problems := mirrors.problems
  references := mirrors.references
  flagged := mirrors.flagged
  around := mirrors.around

/-- A run comes to nothing when it has no text nodes, so it may be left out of the encounters. -/
theorem gather_ofHeld (macros : Macros) (source : SourceId) (held : List LiteralText) (flat : Walk) :
    (Encounter.ofHeld source held).foldl (gather macros) flat = flat.gather macros (.run source held) := by
  cases held with
  | nil => simp [Encounter.ofHeld, gather, Emission.ofTexts, LiteralState.flush, LiteralState.segments,
      Emission.ofSegments, mapCurrent, Frame.appendEmission, Section.extend]
  | cons literal rest => rfl

theorem flush (mirrors : Mirrors held flat walk) (macros : Macros) (boundary : Boundary) :
    Mirrors [] ((Encounter.ofHeld walk.current.source held).foldl (gather macros) flat)
      (walk.flush boundary) := by
  have same : (walk.current.literal.flush boundary walk.current.source).2 =
      Emission.ofTexts walk.current.source held := by
    simp only [LiteralState.flush, Emission.ofTexts, mirrors.pending]
  have released : Mirrors [] { flat with checks := flat.checks + held.length }
      (walk.mapCurrent fun frame => { frame with literal := .after boundary }) :=
    { frame := mirrors.holding _
      pending := by cases boundary <;> rfl
      checks := mirrors.checks
      alike := ⟨mirrors.alike.1, mirrors.alike.2, mirrors.alike.3⟩
      problems := mirrors.problems
      references := mirrors.references
      flagged := mirrors.flagged
      around := mirrors.around }
  have written := released.adding (.appendEmission (Emission.ofTexts walk.current.source held))
  have shape : walk.flush boundary = (walk.mapCurrent fun frame =>
      { frame with literal := .after boundary }).mapCurrent
        fun frame => frame.appendEmission (Emission.ofTexts walk.current.source held) := by
    rw [← same]
    rfl
  rw [gather_ofHeld, shape]
  exact written

/-- There is room for the run of the texts held back if it can be written out as it stands. -/
theorem affords_run (mirrors : Mirrors held flat walk) (macros : Macros) :
    flat.affordsAll macros (Encounter.ofHeld walk.current.source held) = walk.current.flushes := by
  rw [affords_ofHeld, Frame.flushes, mirrors.pending]
  rfl

private theorem descend (mirrors : Mirrors [] flat walk) (opened : OpenSources) (target : SourceId) :
    Mirrors [] flat (walk.descend opened target) where
  frame := by
    rw [mirrors.frame, flattened, flattened, Walk.descend, List.foldl_cons, Frame.absorb_new]
  pending := rfl
  checks := mirrors.checks
  alike := ⟨mirrors.alike.1, mirrors.alike.2, mirrors.alike.3⟩
  problems := mirrors.problems
  references := mirrors.references
  flagged := Frame.flagged_new target
  around parent member := by
    rcases List.mem_cons.mp member with rfl | outer
    · exact mirrors.flagged
    · exact mirrors.around parent outer

private theorem ascend (mirrors : Mirrors [] flat walk) {parent : Frame} {rest : List Frame}
    (inside : walk.parents = parent :: rest) (flushed : parent.literal.segments = []) :
    Mirrors [] flat walk.ascend where
  frame := by
    rw [mirrors.frame, flattened, flattened, Walk.ascend, inside]
    rfl
  pending := by
    simp only [Walk.ascend, inside, Frame.absorb_eq]
    exact flushed
  checks := mirrors.checks
  alike := ⟨mirrors.alike.1, mirrors.alike.2, mirrors.alike.3⟩
  problems := mirrors.problems
  references := mirrors.references
  flagged := by
    simp only [Walk.ascend, inside]
    exact (mirrors.around parent (inside ▸ List.mem_cons_self)).absorb
  around outer member := mirrors.around outer (List.mem_of_mem_tail member)

end Mirrors

structure SamePlace (after before : Walk) : Prop where
  sources : after.sources = before.sources
  parents : after.parents = before.parents
  depth : after.depth = before.depth
  source : after.current.source = before.current.source

theorem SamePlace.trans {last after before : Walk} (later : last.SamePlace after)
    (earlier : after.SamePlace before) : last.SamePlace before :=
  ⟨later.1.trans earlier.1, later.2.trans earlier.2, later.3.trans earlier.3, later.4.trans earlier.4⟩

theorem undergo_samePlace (walk : Walk) (effect : Effect) : (walk.undergo effect).SamePlace walk :=
  ⟨rfl, rfl, rfl, effect.adds.source _⟩

theorem visitDirective_samePlace (walk : Walk) (macros : Macros) (source : SourceId) (given : Directive) :
    (walk.visitDirective macros source given).SamePlace walk := by
  obtain ⟨effect, -, visited⟩ := visitDirective_effect walk source given macros
  rw [visited walk (.refl walk)]
  exact undergo_samePlace walk effect

theorem visitCode_samePlace (walk : Walk) (source : SourceId) (fragment : CodeFragment) :
    (walk.visitCode source fragment).SamePlace walk := by
  rw [visitCode_effect walk source fragment (.refl walk) rfl]
  exact undergo_samePlace walk _

theorem ascend_samePlace (before : Walk) {inner : Walk} {opened : OpenSources} {target : SourceId}
    (entered : before.sources.enter? target = some opened)
    (same : inner.SamePlace (before.descend opened target)) : inner.ascend.SamePlace before where
  sources := by
    rw [ascend_sources, same.sources]
    exact OpenSources.exit_of_enter? entered
  parents := congrArg List.tail same.parents
  depth := congrArg (· - 1) same.depth
  source := by
    have around : inner.parents = before.current :: before.parents := same.parents
    simp only [ascend, around, Frame.absorb_eq]

end Walk

namespace Session
open Walk

variable {session : Session} {sources : OpenSources} {source : SourceId} {held : List LiteralText} {node : Node}
  {rest : List Node} {walk before flat : Walk}

/-- How a source ends whose nodes were reached at `before`: where its encounters fit, with what they come to
in the frame of `flat`. -/
def Ends (outcome : Except Interruption Walk) (before flat : Walk) : Bool → Prop
  | true => ∃ done, outcome = .ok done ∧ done.SamePlace before ∧ done.current.settled = done.current ∧
      Mirrors [] flat done
  | false => outcome = .error .overflow

private theorem Ends.from {outcome : Except Interruption Walk} {fits : Bool} (ends : Ends outcome walk flat fits)
    (same : walk.SamePlace before) : Ends outcome before flat fits := by
  cases fits with
  | true =>
    obtain ⟨done, ended, place, settled, mirrors⟩ := ends
    exact ⟨done, ended, place.trans same, settled, mirrors⟩
  | false => exact ends

/-- A node that is no text writes out the run in front of it, or is not visited at all. -/
theorem ends_behind (calm : session.cancelled walk.checks = false) (mirrors : Mirrors held flat walk)
    (own : walk.current.source = source) {encounter : Encounter} {more : List Encounter}
    (admitted : walk.admits node = (walk.current.flushes && walk.affords encounter))
    (onward : walk.admits node = true →
      let next := ((Encounter.ofHeld source held).foldl (gather session.macros) flat).gather session.macros encounter
      Ends (session.finished source (node :: rest) walk) walk (more.foldl (gather session.macros) next)
        (next.affordsAll session.macros more)) :
    Ends (session.finished source (node :: rest) walk) walk
      ((Encounter.ofHeld source held ++ encounter :: more).foldl (gather session.macros) flat)
      (flat.affordsAll session.macros (Encounter.ofHeld source held ++ encounter :: more)) := by
  subst own
  have alike := (mirrors.flush session.macros .fragment).alike.affords encounter
  have seen : (walk.flush .fragment).affords encounter = walk.affords encounter :=
    Alike.affords ⟨rfl, rfl, rfl⟩ encounter
  rw [affordsAll_append, affordsAll, mirrors.affords_run, alike, seen, ← Bool.and_assoc, ← admitted,
    List.foldl_append, List.foldl_cons]
  cases enters : walk.admits node with
  | true => exact onward enters
  | false =>
    show session.finished _ _ _ = _
    rw [finished, walked_overflow calm enters]
    rfl

/-- Uncancelled, the nodes of an open source are all visited if there is room for their encounters, and
what is there when the source ends is what the encounters come to. -/
theorem finished_mirrors (calm : ∀ check, session.cancelled check = false) {depth : Nat} (nodes : List Node)
    (mirrors : Mirrors held flat walk) (open_ : walk.sources = sources) (level : walk.depth = depth)
    (own : walk.current.source = source) :
    Ends (session.finished source nodes walk) walk
      ((session.encounters sources depth source held nodes).foldl (gather session.macros) flat)
      (flat.affordsAll session.macros (session.encounters sources depth source held nodes)) := by
  induction sources, depth, source, held, nodes using Session.encounters.induct session
    generalizing flat walk with
  | case1 sources depth source held =>
    rw [encounters, finished, walked_nil, ← own, mirrors.affords_run]
    cases room : walk.current.flushes with
    | true =>
      refine ⟨walk.flush .endOfInput, if_pos room, ⟨rfl, rfl, rfl, rfl⟩, rfl, ?_⟩
      exact mirrors.flush session.macros .endOfInput
    | false => exact if_neg (Bool.eq_false_iff.mp room)
  | case2 sources depth source held literal rest ih =>
    rw [encounters, finished, walked_text (calm _) literal]
    exact (ih (mirrors.text literal) open_ level own).from ⟨rfl, rfl, rfl, rfl⟩
  | case3 sources depth source held given rest ih =>
    have flushed : Mirrors [] _ (walk.check.flush .fragment) :=
      (mirrors.flush session.macros .fragment).check
    have place := visitDirective_samePlace (walk.check.flush .fragment) session.macros source given
    rw [own] at flushed
    rw [encounters]
    refine ends_behind (calm _) mirrors own rfl fun admitted => ?_
    rw [finished, walked_directive (calm _) admitted]
    exact (ih (flushed.visitDirective session.macros source given) (place.sources.trans open_)
      (place.depth.trans level) (place.source.trans own)).from (place.trans ⟨rfl, rfl, rfl, rfl⟩)
  | case4 sources depth source held fragment rest ih =>
    subst level
    have flushed : Mirrors [] _ (walk.check.flush .fragment) :=
      (mirrors.flush session.macros .fragment).check
    have place := visitCode_samePlace (walk.check.flush .fragment) source fragment
    rw [own] at flushed
    rw [encounters]
    refine ends_behind (calm _) mirrors own (Bool.and_true _).symm fun admitted => ?_
    rw [finished, walked_code (calm _) admitted]
    exact (ih (flushed.visitCode source fragment) (place.sources.trans open_) place.depth
      (place.source.trans own)).from (place.trans ⟨rfl, rfl, rfl, rfl⟩)
  | case5 sources depth source held inclusion rest ih inner =>
    have flushed : Mirrors [] _ (walk.check.flush .fragment) :=
      (mirrors.flush session.macros .fragment).check
    rw [own] at flushed
    cases decided : session.expansion sources source inclusion with
    | unresolved =>
      rw [encounters_unresolved _ _ _ decided]
      refine ends_behind (calm _) mirrors own (Bool.and_true _).symm fun admitted => ?_
      rw [finished, walked_unresolved (calm _) admitted (open_ ▸ decided)]
      exact (ih (flushed.complain (.unresolved inclusion.file) source inclusion.blameSpan) open_ level own).from
        ⟨rfl, rfl, rfl, rfl⟩
    | cyclic target =>
      rw [encounters_cyclic _ _ _ decided]
      refine ends_behind (calm _) mirrors own (Bool.and_true _).symm fun admitted => ?_
      rw [finished, walked_cyclic (calm _) admitted (open_ ▸ decided)]
      exact (ih (flushed.complain (.cyclic target.source) source inclusion.blameSpan) open_ level own).from
        ⟨rfl, rfl, rfl, rfl⟩
    | expand target opened =>
      rw [encounters_expand _ _ _ decided]
      refine ends_behind (calm _) mirrors own (Bool.and_true _).symm fun admitted => ?_
      have entered := (expansion_eq_expand decided).2
      have inside := inner target opened decided (flushed.descend opened target.source) rfl
        (congrArg (· + 1) level) rfl
      rw [finished, walked_expand (calm _) admitted (open_ ▸ decided)]
      simp only [Walk.gather, affordsAll_append, List.foldl_append]
      cases room : affordsAll session.macros ((Encounter.ofHeld source held).foldl (gather session.macros) flat).check
          (session.encounters opened (depth + 1) target.source [] target.nodes) with
      | false =>
        rw [room] at inside
        rw [show session.finished _ _ _ = .error .overflow from inside]
        rfl
      | true =>
        rw [room] at inside
        obtain ⟨middle, ended, same, -, mirrored⟩ := inside
        have back : middle.ascend.SamePlace (walk.check.flush .fragment) :=
          ascend_samePlace (walk.check.flush .fragment) (open_ ▸ entered) same
        rw [ended]
        exact (ih (mirrored.ascend same.parents rfl) (back.sources.trans open_) (back.depth.trans level)
          (back.source.trans own)).from (back.trans ⟨rfl, rfl, rfl, rfl⟩)

theorem collect_calm (calm : ∀ check, session.cancelled check = false) (root : Template) :
    session.collect root = if session.fits root then .ok (session.gathered root) else .error .overflow := by
  have ends : Ends (session.finished root.source root.nodes (start root.source)) (start root.source)
      ((session.encountersOf root).foldl (gather session.macros) (start root.source)) (session.fits root) :=
    finished_mirrors calm root.nodes (mirrors_start root.source) rfl rfl rfl
  rw [collect_eq_finished]
  cases room : session.fits root with
  | false =>
    rw [room] at ends
    rw [show session.finished _ _ _ = .error .overflow from ends]
    rfl
  | true =>
    rw [room] at ends
    obtain ⟨done, ended, same, settled, mirrored⟩ := ends
    have flattened : done.flattened = done.current := by
      have alone : done.parents = [] := same.parents
      rw [Walk.flattened, alone]
      rfl
    have frame := mirrored.frame
    have checks := mirrored.checks
    rw [ended]
    show Except.ok _ = Except.ok _
    simp only [gathered, frame, flattened, settled, mirrored.problems, mirrored.references,
      mirrored.alike.outputExtension?, checks]
    rfl

/-- For every place includes may lead to, every root and all macros, collecting with a frame for
each open include gives what a single frame gives that all encounters are appended to in order:
the five sections piece by piece, the parameters, the base class and host marks, the count of
transformation lines, the problems, the references and the output extension. It fails exactly when a
place that a sum is taken for has no offsets, and then with an overflow. -/
theorem collect_eq_gathered (includes : Includes) (macros : Macros) (root : Template) :
    let session : Session := ⟨includes, macros, neverCancelled⟩
    match session.collect root with
    | .ok collected => collected = session.gathered root ∧ ∀ span, session.Takes root span → span.IsWord
    | .error interruption => interruption = .overflow ∧ ∃ span, session.Takes root span ∧ ¬span.IsWord := by
  intro session
  rw [collect_calm (fun _ => rfl : ∀ check, session.cancelled check = false)]
  cases room : session.fits root with
  | false => exact ⟨rfl, fits_eq_false_iff.mp room⟩
  | true => exact ⟨rfl, fits_iff.mp room⟩

end Session

end TextTemplate
