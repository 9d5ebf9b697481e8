import Mathlib.Data.List.Forall2
import TextTemplate.Proofs.Effects
import TextTemplate.Proofs.Encounters

/-! What each encounter may write, and that the sections of a collected template hold nothing else.
A law of pieces is then proved encounter by encounter, without a look at the walk. -/

namespace TextTemplate

/-- What an encounter may add to a section: fixed text, or text mapped to what it stands for. -/
def Encounter.Writes : Encounter → Piece → Prop
  | .run source texts, piece => piece ∈ (Emission.ofTexts source texts).pieces
  | .directive source given, piece => piece.origin? = none ∨ ∃ name value,
      given.value? name = some value ∧ piece = .mapped value.1 ⟨source, value.2, .code⟩
  | .code source _ fragment, piece => piece.origin? = none ∨
      piece = .mapped fragment.code ⟨source, fragment.codeSpan, .code⟩
  | .refused _ _ _, _ => False
  | .expanded _ _ _, _ => False

/-- The pieces of one section that an encounter adds: the statements of a run go to the transform method. -/
structure Encounter.Supplies (encounter : Encounter) (kind : SectionKind) (pieces : List Piece) : Prop where
  writes : ∀ piece ∈ pieces, encounter.Writes piece
  run : ∀ texts ∈ encounter.run?,
    pieces = if kind = .transformation then (Emission.ofTexts texts.1 texts.2).pieces else []

private theorem Encounter.supplies_nothing {encounter : Encounter} (other : encounter.run? = none)
    (kind : SectionKind) :
    encounter.Supplies kind [] where
  writes := List.forall_mem_nil _
  run texts member := by
    rw [other] at member
    cases member

theorem exists_related {α β : Type} {related : α → β → Prop} {firsts : List α} {seconds : List β}
    (each : List.Forall₂ related firsts seconds) {second : β} (listed : second ∈ seconds) :
    ∃ first ∈ firsts, related first second := by
  induction each with
  | nil => cases listed
  | cons here _ ih =>
    rcases List.mem_cons.mp listed with rfl | later
    · exact ⟨_, List.mem_cons_self, here⟩
    · obtain ⟨first, member, relates⟩ := ih later
      exact ⟨first, List.mem_cons_of_mem _ member, relates⟩

private theorem Effect.mem_added {effect : Effect} {frame : Frame} {kind : SectionKind} {piece : Piece}
    (member : piece ∈ effect.written kind ++ if kind = .baseClass then effect.captured frame else []) :
    (∃ entry ∈ effect.entries, entry.2 = piece) ∨
      ∃ captured ∈ effect.inherits?, piece = .mapped captured.1 ⟨captured.2.1, captured.2.2, .code⟩ := by
  rcases List.mem_append.mp member with written | captured
  · obtain ⟨entry, listed, same⟩ := List.mem_map.mp written
    exact .inl ⟨entry, (List.mem_filter.mp listed).1, same⟩
  · split at captured
    · unfold Effect.captured at captured
      split at captured
      next given =>
        split at captured
        · cases captured
        · exact .inr ⟨_, given, List.mem_singleton.mp captured⟩
      next => cases captured
    · cases captured

namespace Walk

private theorem mem_codeEntries {source : SourceId} {fragment : CodeFragment} {part : SectionKind}
    {entry : SectionKind × Piece} (listed : entry ∈ codeEntries source fragment part) (depth : Nat) :
    (Encounter.code source depth fragment).Writes entry.2 := by
  unfold codeEntries at listed
  split at listed
  · cases listed
  · cases kind : fragment.kind <;> simp only [kind, List.mem_cons, List.not_mem_nil, or_false] at listed
    case expression =>
      rcases listed with rfl | rfl | rfl
      · exact .inl rfl
      · exact .inr rfl
      · exact .inl rfl
    all_goals
      rcases listed with rfl | rfl
      · exact .inr rfl
      · exact .inl rfl

private theorem gather_current (macros : Macros) (walk : Walk) (encounter : Encounter) :
    (∃ source texts, (walk.gather macros encounter).current =
        walk.current.appendEmission (Emission.ofTexts source texts)) ∨
      ∃ effect : Effect, (walk.gather macros encounter).current = effect.change walk.current := by
  have unaffected : ∃ effect : Effect, walk.current = effect.change walk.current :=
    ⟨walk.unaffected, (congrArg Walk.current (undergo_unaffected (.refl walk))).symm⟩
  cases encounter with
  | run source texts => exact .inl ⟨source, texts, rfl⟩
  | refused source inclusion complaint => exact .inr unaffected
  | expanded source inclusion target => exact .inr unaffected
  | directive source given =>
    obtain ⟨effect, -, visited⟩ := gather_directive walk source given macros
    exact .inr ⟨effect, by rw [visited]; rfl⟩
  | code source depth fragment =>
    refine .inr ⟨codeEffect { walk.check with depth } source fragment, ?_⟩
    rw [gather_code]
    rfl

/-- What statements of runs and effects of nodes preserve holds of all that is gathered. -/
theorem gatherAll_preserves {holds : Frame → Prop}
    (emission : ∀ frame source texts, holds frame → holds (frame.appendEmission (Emission.ofTexts source texts)))
    (change : ∀ frame (effect : Effect), holds frame → holds (effect.change frame)) (macros : Macros)
    (encounters : List Encounter) (walk : Walk) (begun : holds walk.current) :
    holds (encounters.foldl (gather macros) walk).current := by
  induction encounters generalizing walk with
  | nil => exact begun
  | cons encounter rest ih =>
    apply ih
    rcases gather_current macros walk encounter with ⟨source, texts, same⟩ | ⟨effect, same⟩
    · rw [same]
      exact emission _ source texts begun
    · rw [same]
      exact change _ effect begun

private theorem gather_supplies (macros : Macros) (walk : Walk) (encounter : Encounter) (kind : SectionKind) :
    ∃ pieces, ((walk.gather macros encounter).current.part kind).pieces =
      (walk.current.part kind).pieces ++ pieces ∧ encounter.Supplies kind pieces := by
  cases encounter with
  | run source texts =>
    cases kind with
    | transformation =>
      refine ⟨_, rfl, fun _ written => written, ?_⟩
      rintro _ ⟨⟩
      rfl
    | imports | baseClass | parameters | feature =>
      refine ⟨[], (List.append_nil _).symm, List.forall_mem_nil _, ?_⟩
      rintro _ ⟨⟩
      rfl
  | refused source reference complaint => exact ⟨[], (List.append_nil _).symm, Encounter.supplies_nothing rfl kind⟩
  | expanded source reference target => exact ⟨[], (List.append_nil _).symm, Encounter.supplies_nothing rfl kind⟩
  | directive source given =>
    obtain ⟨effect, stems, visited⟩ := gather_directive walk source given macros
    rw [visited]
    refine ⟨_, effect.change_pieces _ kind, fun piece member => ?_, nofun⟩
    rcases Effect.mem_added member with ⟨entry, listed, rfl⟩ | ⟨captured, inherited, rfl⟩
    · exact (stems.entries entry listed).2
    · obtain ⟨name, carried, same⟩ := stems.inherits captured inherited
      exact .inr ⟨name, _, carried, by rw [same]⟩
  | code source depth fragment =>
    rw [gather_code]
    refine ⟨_, Effect.change_pieces _ _ kind, fun piece member => ?_, nofun⟩
    rcases Effect.mem_added member with ⟨entry, listed, rfl⟩ | ⟨captured, absent, -⟩
    · exact mem_codeEntries listed depth
    · cases absent

theorem gatherAll_supplies (macros : Macros) (encounters : List Encounter) (walk : Walk) (kind : SectionKind) :
    ∃ parts, ((encounters.foldl (gather macros) walk).current.part kind).pieces =
        (walk.current.part kind).pieces ++ parts.flatten ∧
      List.Forall₂ (fun encounter part => encounter.Supplies kind part) encounters parts := by
  induction encounters generalizing walk with
  | nil => exact ⟨[], (List.append_nil _).symm, .nil⟩
  | cons encounter rest ih =>
    obtain ⟨pieces, added, supplies⟩ := gather_supplies macros walk encounter kind
    obtain ⟨parts, later, each⟩ := ih (walk.gather macros encounter)
    refine ⟨pieces :: parts, ?_, .cons supplies each⟩
    rw [List.foldl_cons, later, added, List.append_assoc, List.flatten_cons]

theorem mem_gatherAll {macros : Macros} {encounters : List Encounter} {walk : Walk} {kind : SectionKind}
    {piece : Piece} (member : piece ∈ ((encounters.foldl (gather macros) walk).current.part kind).pieces) :
    piece ∈ (walk.current.part kind).pieces ∨ ∃ encounter ∈ encounters, encounter.Writes piece := by
  obtain ⟨parts, gathered, each⟩ := gatherAll_supplies macros encounters walk kind
  rw [gathered, List.mem_append] at member
  refine member.imp_right fun added => ?_
  obtain ⟨part, listed, own⟩ := List.mem_flatten.mp added
  obtain ⟨encounter, visited, supplies⟩ := exists_related each listed
  exact ⟨encounter, visited, supplies.writes piece own⟩

end Walk

/-- Every piece of a collected section was written by an encounter. -/
theorem Session.exists_writes {session : Session} {root : Template} {kind : SectionKind} {piece : Piece}
    (member : piece ∈ ((session.gathered root).frame.part kind).pieces) :
    ∃ encounter ∈ session.encountersOf root, encounter.Writes piece := by
  rcases Walk.mem_gatherAll member with before | written
  · cases kind <;> cases before
  · exact written

end TextTemplate
