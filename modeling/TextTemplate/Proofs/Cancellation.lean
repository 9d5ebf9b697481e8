import Mathlib.Logic.ExistsUnique
import TextTemplate.Proofs.TracedCode
import TextTemplate.Proofs.Traversal

/-! Cancelling a compilation. The checks made so far are the visits made so far, so each node has a
check of its own in front of it; and a traversal that gets cancelled comes by the places of one
that never is, up to the check that stops it. -/

namespace TextTemplate

namespace Traversal
variable {now : Traversal} {includes : Includes} {visit : SourceId × Node}

private theorem ahead_of_upcoming (upcoming : now.upcoming? = some visit) :
    (now.ahead includes).head? = some visit := by
  obtain ⟨node, first, rfl⟩ := Option.map_eq_some_iff.mp upcoming
  obtain ⟨rest, nodes⟩ := List.head?_eq_some_iff.mp first
  rw [ahead, nodes, Includes.visits]
  rfl

/-- The checks made when no move is left: a node that is not visited has had its check. -/
def polls (last : Traversal) : Nat :=
  if last.upcoming?.isSome then last.walk.checks + 1 else last.walk.checks

end Traversal

namespace Session
variable {session : Session} {root : Template} {now next last other : Traversal}

/-- What is ahead are the visits that have no check yet. -/
theorem Reaches.ahead (reached : session.Reaches root now) :
    now.ahead session.includes = (session.includes.visitsOf root).drop now.walk.checks ∧
      now.walk.checks ≤ (session.includes.visitsOf root).length := by
  induction reached with
  | refl => exact ⟨List.append_nil _, Nat.zero_le _⟩
  | tail _ step ih =>
    obtain ⟨left, bound⟩ := ih
    rcases step.ahead with ⟨visit, -, -, visited, checked⟩ | ⟨-, same, checked, -⟩
    · have first := visited.symm.trans left
      rw [checked]
      constructor
      · rw [← List.tail_drop, ← first, List.tail_cons]
      · refine Nat.lt_of_not_le fun beyond => ?_
        rw [List.drop_eq_nil_of_le beyond] at first
        cases first
    · rw [same, checked]
      exact ⟨left, bound⟩

theorem Reaches.upcoming {visit : SourceId × Node} (reached : session.Reaches root now)
    (upcoming : now.upcoming? = some visit) :
    (session.includes.visitsOf root)[now.walk.checks]? = some visit := by
  rw [← List.head?_drop, ← reached.ahead.1]
  exact Traversal.ahead_of_upcoming upcoming

private theorem Reaches.passed (reached : session.Reaches root now) {check : Nat} (made : check < now.walk.checks) :
    ∃ earlier, session.Reaches root earlier ∧ earlier.upcoming?.isSome = true ∧
      earlier.walk.checks = check := by
  induction reached with
  | refl => cases made
  | @tail before after reached step ih =>
    rcases step.ahead with ⟨visit, upcoming, -, -, checked⟩ | ⟨-, -, checked, -⟩
    · rcases Nat.lt_or_eq_of_le (Nat.le_of_lt_succ (checked ▸ made)) with earlier | this
      · exact ih earlier
      · exact ⟨before, reached, by rw [upcoming, Option.isSome_some], this.symm⟩
    · exact ih (checked ▸ made)

theorem Moves.checks_le (moves : session.Moves now last) : now.walk.checks ≤ last.walk.checks := by
  induction moves with
  | refl => exact Nat.le_refl _
  | tail _ step ih =>
    rcases step.ahead with ⟨-, -, -, -, checked⟩ | ⟨-, -, checked, -⟩ <;> omega

private theorem Moves.eq_of_upcoming (moves : session.Moves now last)
    (upcoming : now.upcoming?.isSome = true) (same : now.walk.checks = last.walk.checks) : now = last := by
  rcases Relation.ReflTransGen.cases_head moves with equal | ⟨next, step, more⟩
  · exact equal
  · have later := Moves.checks_le more
    have checked := (step.checked upcoming).2
    omega

private theorem Reaches.unique (first : session.Reaches root now) (second : session.Reaches root other)
    (upcoming : now.upcoming?.isSome = true) (coming : other.upcoming?.isSome = true)
    (same : now.walk.checks = other.walk.checks) : now = other := by
  rcases Relation.ReflTransGen.total_of_right_unique Step.deterministic first second with onward | back
  · exact Moves.eq_of_upcoming onward upcoming same
  · exact (Moves.eq_of_upcoming back coming same.symm).symm

def calm (session : Session) : Session :=
  { session with cancelled := neverCancelled }

theorem Step.calm (step : session.Step now next) : session.calm.Step now next := by
  cases step with
  | visit _ admitted plain => exact .visit rfl admitted plain
  | enter _ admitted expanded => exact .enter rfl admitted expanded
  | leave room => exact .leave room

private theorem Step.uncalm (step : session.calm.Step now next)
    (go : now.walk.checks < next.walk.checks → session.cancelled now.walk.checks = false) :
    session.Step now next := by
  have made (upcoming : now.upcoming?.isSome = true) : session.cancelled now.walk.checks = false :=
    go ((step.checked upcoming).2 ▸ Nat.lt_succ_self _)
  cases step with
  | visit _ admitted plain => exact .visit (made rfl) admitted plain
  | enter _ admitted expanded => exact .enter (made rfl) admitted expanded
  | leave room => exact .leave room

theorem reaches_iff {limit : Nat} (passes : ∀ check < limit, session.cancelled check = false)
    (stops : session.cancelled limit = true) :
    session.Reaches root now ↔ session.calm.Reaches root now ∧ now.walk.checks ≤ limit := by
  constructor
  · intro reached
    induction reached with
    | refl => exact ⟨.refl, Nat.zero_le _⟩
    | tail _ step ih =>
      obtain ⟨reached, bound⟩ := ih
      refine ⟨reached.tail step.calm, ?_⟩
      rcases step.ahead with ⟨visit, -, go, -, checked⟩ | ⟨-, -, checked, -⟩
      · rw [checked]
        refine Nat.lt_of_le_of_ne bound fun same => ?_
        rw [same, stops] at go
        cases go
      · exact checked ▸ bound
  · rintro ⟨reached, bound⟩
    induction reached with
    | refl => exact .refl
    | tail _ step ih =>
      have fewer := Moves.checks_le (.single step)
      refine (ih (Nat.le_trans fewer bound)).tail (step.uncalm fun checked => passes _ ?_)
      exact Nat.lt_of_lt_of_le checked bound

private theorem interruption?_calm (go : now.upcoming?.isSome = true → session.cancelled now.walk.checks = false) :
    session.interruption? now = session.calm.interruption? now := by
  obtain ⟨walk, source, nodes, around⟩ := now
  cases nodes with
  | nil => rfl
  | cons node rest =>
    have goes : session.cancelled walk.checks = false := go rfl
    simp only [interruption?, calm, neverCancelled, goes, Bool.false_eq_true, if_false]

private theorem calm_ends (session : Session) (root : Template) :
    ∃ last, session.calm.Reaches root last ∧ (∀ next, ¬session.calm.Step last next) ∧
      match session.calm.interruption? last with
      | some interruption => interruption = .overflow
      | none => last.upcoming? = none ∧ last.walk.checks = (session.includes.visitsOf root).length := by
  obtain ⟨last, reached, stuck, -⟩ := session.calm.collect_moves root
  refine ⟨last, reached, stuck, ?_⟩
  obtain ⟨left, bound⟩ := reached.ahead
  obtain ⟨walk, source, nodes, around⟩ := last
  cases nodes with
  | nil =>
    cases room : walk.current.flushes with
    | false => simp only [interruption?, room, Bool.false_eq_true, if_false]
    | true =>
      simp only [interruption?, room, if_true]
      cases around with
      | cons outer around => exact absurd (.leave room) (stuck _)
      | nil =>
        have nothing : (session.includes.visitsOf root).drop walk.checks = [] := by
          refine left.symm.trans ?_
          rw [Traversal.ahead, Includes.visits_nil]
          rfl
        exact ⟨rfl, Nat.le_antisymm bound (List.drop_eq_nil_iff.mp nothing)⟩
  | cons node rest =>
    cases admitted : walk.admits node with
    | false => rw [interruption?_overflow rfl admitted]
    | true =>
      cases expanded : session.includes.expanded? walk.sources source node with
      | none => exact absurd (.visit rfl admitted expanded) (stuck _)
      | some pair => exact absurd (.enter rfl admitted expanded) (stuck _)

/-- The checks that were made when no move is left are those in front of the nodes come by. -/
theorem Reaches.polled_iff (ended : session.Reaches root last) (stuck : ∀ next, ¬session.Step last next)
    {check : Nat} : check < last.polls ↔
      ∃ now, session.Reaches root now ∧ now.upcoming?.isSome = true ∧ now.walk.checks = check := by
  constructor
  · intro made
    rcases Nat.lt_or_ge check last.walk.checks with earlier | latest
    · exact ended.passed earlier
    · unfold Traversal.polls at made
      split at made
      next coming => exact ⟨last, ended, coming, by omega⟩
      next => omega
  · rintro ⟨now, reached, coming, rfl⟩
    have onward := reached.onward ended stuck
    have later := Moves.checks_le onward
    unfold Traversal.polls
    split
    next => omega
    next halted =>
      refine Nat.lt_of_le_of_ne later fun same => ?_
      rw [Moves.eq_of_upcoming onward coming same] at coming
      exact halted coming

private theorem Reaches.polls_le (reached : session.Reaches root last) :
    last.polls ≤ (session.includes.visitsOf root).length := by
  unfold Traversal.polls
  split
  next coming =>
    obtain ⟨visit, upcoming⟩ := Option.isSome_iff_exists.mp coming
    exact (List.getElem?_eq_some_iff.mp (reached.upcoming upcoming)).1
  next => exact reached.ahead.2

section
variable {limit : Nat} (passes : ∀ check < limit, session.cancelled check = false)
  (stops : session.cancelled limit = true) (ended : session.calm.Reaches root last)
  (stuck : ∀ next, ¬session.calm.Step last next)
include passes stops ended stuck

private theorem polled_iff {check : Nat} {visit : SourceId × Node} :
    (∃! now, session.Reaches root now ∧ now.upcoming? = some visit ∧ now.walk.checks = check) ↔
      check ≤ limit ∧ check < last.polls ∧ (session.includes.visitsOf root)[check]? = some visit := by
  constructor
  · rintro ⟨now, ⟨reached, upcoming, rfl⟩, -⟩
    obtain ⟨calmly, bound⟩ := (reaches_iff passes stops).mp reached
    have coming : now.upcoming?.isSome = true := by rw [upcoming, Option.isSome_some]
    exact ⟨bound, (ended.polled_iff stuck).mpr ⟨now, calmly, coming, rfl⟩, reached.upcoming upcoming⟩
  · rintro ⟨bound, made, visited⟩
    obtain ⟨now, reached, upcoming, rfl⟩ := (ended.polled_iff stuck).mp made
    obtain ⟨coming, same⟩ := Option.isSome_iff_exists.mp upcoming
    have own := (reached.upcoming same).symm.trans visited
    refine ⟨now, ⟨(reaches_iff passes stops).mpr ⟨reached, bound⟩, same.trans own, rfl⟩, ?_⟩
    rintro other ⟨reachedToo, coming, checks⟩
    exact reached.unique ((reaches_iff passes stops).mp reachedToo).1 upcoming
      (by rw [coming, Option.isSome_some]) checks.symm |>.symm

private theorem collect_uncancelled (enough : last.polls ≤ limit) :
    session.collect root = session.calm.collect root := by
  have early : last.walk.checks ≤ last.polls := by
    unfold Traversal.polls
    split <;> omega
  have reached := (reaches_iff passes stops).mpr ⟨ended, Nat.le_trans early enough⟩
  have alike : session.interruption? last = session.calm.interruption? last := by
    refine interruption?_calm fun coming => passes _ ?_
    rw [Traversal.polls, if_pos coming] at enough
    exact enough
  rw [collect_of_stuck reached fun next step => stuck next step.calm, collect_of_stuck ended stuck, outcome, outcome,
    alike]

private theorem collect_cancelled (short : limit < last.polls) :
    session.collect root = .error (.aborted (limit + 1)) := by
  obtain ⟨now, reached, coming, rfl⟩ := (ended.polled_iff stuck).mp short
  refine collect_of_interruption ((reaches_iff passes stops).mpr ⟨reached, Nat.le_refl _⟩) ?_
  obtain ⟨walk, source, nodes, around⟩ := now
  cases nodes with
  | nil => cases coming
  | cons node rest => exact interruption?_stop stops

end

end Session

/-- Compiling with a signal that first says stop at check `limit`. Without a signal a number of checks is
made: one for each visit, unless the visits end early where a sum of offsets overflows. If there are no more
of them than `limit`, the signal changes nothing; else there is no program, and the check that said stop was the
last. The checks are made one by one in front of the visits, depth first, and up to the last of them the walk is
the one without a signal. -/
theorem compile_cancelled (options : Options) (includes : Includes) (root : Template)
    {cancelled : Nat → Bool} {limit : Nat} (passes : ∀ check < limit, cancelled check = false)
    (stops : cancelled limit = true) :
    let visits := includes.visitsOf root
    let calm : Session := ⟨includes, options.macros, neverCancelled⟩
    let session : Session := ⟨includes, options.macros, cancelled⟩
    ∃ polls ≤ visits.length,
    (match calm.collect root with
      | .ok collected => polls = visits.length ∧ collected.checks = polls ∧
        compile options includes neverCancelled root = .ok (Program.assemble collected options)
      | .error interruption => interruption = .overflow ∧ ∃ span, calm.Takes root span ∧ ¬span.IsWord) ∧
    (polls ≤ limit →
      session.collect root = calm.collect root ∧
      compile options includes cancelled root = compile options includes neverCancelled root) ∧
    (limit < polls → compile options includes cancelled root = .error (.aborted (limit + 1))) ∧
    (∀ now, session.Reaches root now ↔ calm.Reaches root now ∧ now.walk.checks ≤ limit) ∧
    ∀ check visit,
      (∃! now, session.Reaches root now ∧ now.upcoming? = some visit ∧ now.walk.checks = check) ↔
        check ≤ limit ∧ check < polls ∧ visits[check]? = some visit := by
  intro visits calm session
  obtain ⟨last, ended, stuck, ending⟩ := session.calm_ends root
  refine ⟨last.polls, ended.polls_le, ?_, fun enough => ?_, fun short => ?_, fun now => ?_, fun check visit => ?_⟩
  · have collects : calm.collect root = calm.outcome last := Session.collect_of_stuck ended stuck
    have gathers : calm.collect root = _ := Session.collect_calm (fun _ => rfl) root
    rw [Session.outcome] at collects
    change match calm.interruption? last with | some _ => _ | none => _ at ending
    cases interrupted : calm.interruption? last with
    | some interruption =>
      rw [interrupted] at collects ending
      rw [collects] at gathers ⊢
      refine ⟨ending, ?_⟩
      cases room : calm.fits root with
      | false => exact Session.fits_eq_false_iff.mp room
      | true =>
        rw [room] at gathers
        cases gathers
    | none =>
      rw [interrupted] at collects ending
      obtain ⟨halted, all⟩ := ending
      have made : last.polls = last.walk.checks := by
        rw [Traversal.polls, halted]
        rfl
      rw [collects, made]
      exact ⟨all, rfl, congrArg (Except.map _) collects⟩
  · have same : session.collect root = calm.collect root :=
      Session.collect_uncancelled passes stops ended stuck enough
    exact ⟨same, congrArg (Except.map _) same⟩
  · have aborted : session.collect root = .error (.aborted (limit + 1)) :=
      Session.collect_cancelled passes stops ended stuck short
    exact congrArg (Except.map _) aborted
  · exact Session.reaches_iff passes stops
  · exact Session.polled_iff passes stops ended stuck

def nestingRoot : Template where
  source := ⟨"root.tt"⟩
  text := ""
  nodes := [.inclusion ⟨"big.tt", ⟨0, 1⟩, ⟨0, 1⟩⟩, .text ⟨"never reached", ⟨1, 14⟩⟩]

def nestedBig : Template where
  source := ⟨"big.tt"⟩
  text := ""
  nodes := [.text ⟨"a", ⟨0, 1⟩⟩, .code ⟨.statement, " b(); ", ⟨3, 9⟩, ⟨1, 11⟩⟩]

def nesting : Bundle := ⟨⟨"root.tt"⟩, [nestingRoot, nestedBig], .empty⟩

private theorem nesting_visits : nesting.includes.visitsOf nestingRoot =
    [(⟨"root.tt"⟩, .inclusion ⟨"big.tt", ⟨0, 1⟩, ⟨0, 1⟩⟩), (⟨"big.tt"⟩, .text ⟨"a", ⟨0, 1⟩⟩),
      (⟨"big.tt"⟩, .code ⟨.statement, " b(); ", ⟨3, 9⟩, ⟨1, 11⟩⟩),
      (⟨"root.tt"⟩, .text ⟨"never reached", ⟨1, 14⟩⟩)] := by
  have expanded : nesting.includes.expanded? ⟨[⟨"root.tt"⟩]⟩ ⟨"root.tt"⟩
      (.inclusion ⟨"big.tt", ⟨0, 1⟩, ⟨0, 1⟩⟩) = some (nestedBig, ⟨[⟨"big.tt"⟩, ⟨"root.tt"⟩]⟩) := by
    decide +kernel
  rw [Includes.visitsOf, nestingRoot, Includes.visits_cons_expanded expanded, nestedBig]
  rw [Includes.visits_cons_plain rfl, Includes.visits_cons_plain rfl, Includes.visits_nil,
    Includes.visits_cons_plain rfl, Includes.visits_nil]
  rfl

theorem compile_cancelled_nesting :
    let cancelled : Nat → Bool := fun check => decide (2 ≤ check)
    (∀ check < 2, cancelled check = false) ∧ cancelled 2 = true ∧
    compile {} nesting.includes cancelled nestingRoot = .error (.aborted 3) ∧
    ∃! now, Session.Reaches ⟨nesting.includes, ({} : Options).macros, cancelled⟩ nestingRoot now ∧
      now.upcoming? = some (⟨"big.tt"⟩, .code ⟨.statement, " b(); ", ⟨3, 9⟩, ⟨1, 11⟩⟩) ∧
      now.walk.checks = 2 := by
  intro cancelled
  have passes : ∀ check < 2, cancelled check = false := by decide
  obtain ⟨polls, -, whole, -, stopped, -, polled⟩ :=
    compile_cancelled {} nesting.includes nestingRoot passes (show cancelled 2 = true from rfl)
  have collects := Bundle.collect_session (show nesting.find? nesting.root = some nestingRoot by decide) {}
  rw [Bundle.fits_of_isRoomy (by decide), if_pos rfl] at collects
  have collected : Session.collect ⟨nesting.includes, ({} : Options).macros, neverCancelled⟩ nestingRoot = _ := collects
  rw [collected] at whole
  obtain ⟨rfl, -⟩ := whole
  rw [nesting_visits] at stopped polled
  exact ⟨passes, rfl, stopped (by decide), (polled 2 _).mpr ⟨Nat.le_refl _, by decide, rfl⟩⟩

end TextTemplate
