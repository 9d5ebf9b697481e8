import TextTemplate.Proofs.TrimmedValues

/-! The places that offsets are summed up for, each counted without a bound: those of the values trimmed for a
directive and of the lines of a run. A root is collected without an overflow exactly if all of them have
offsets. -/

namespace TextTemplate
open Text

/-- Where, counted from the starts of their segments, the lines of a run are. -/
def Segment.Places (segments : List Segment) (line : List Char) (span : Span) : Prop :=
  ∃ segment ∈ segments, ∃ earlier later, segment.lines = earlier ++ line :: later ∧
    span = ⟨segment.span.start + width earlier.flatten, segment.span.start + (width earlier.flatten + width line)⟩

private theorem Emission.fits_places_iff {source : SourceId} {segments : List Segment} :
    (ofSegments source segments).fits = true ↔ ∀ line span, Segment.Places segments line span → span.IsWord := by
  refine fits_iff.trans ⟨?_, ?_⟩
  · rintro fits line _ ⟨segment, pending, earlier, later, split, rfl⟩
    obtain ⟨start, stop⟩ := Span.fits_iff.mp (fits segment pending earlier line later split)
    exact ⟨start, stop⟩
  · intro words segment pending earlier line later split
    obtain ⟨start, stop⟩ := words line _ ⟨segment, pending, earlier, later, split, rfl⟩
    exact Span.fits_iff.mpr ⟨start, stop⟩

/-- The places of the text that a frame holds back. -/
def Frame.Holds (frame : Frame) (span : Span) : Prop :=
  ∃ line, Segment.Places frame.literal.segments line span

namespace Frame
variable {frame : Frame}

theorem flushes_iff : frame.flushes = true ↔ ∀ span, frame.Holds span → span.IsWord := by
  refine Emission.fits_places_iff.trans ⟨?_, ?_⟩
  · rintro words span ⟨line, places⟩
    exact words line span places
  · exact fun words line span places => words span ⟨line, places⟩

end Frame

namespace Encounter

/-- Where, counted without bound, an encounter takes text that it writes or refers to. -/
inductive Places : Encounter → OriginKind → List Char → Span → Prop where
  | code (source : SourceId) (depth : Nat) (fragment : CodeFragment) :
      Places (.code source depth fragment) .code fragment.code.toList fragment.codeSpan
  | value (source : SourceId) {given : Directive} {name text : String} {span : Span}
      (carries : given.Carries name text span) : Places (.directive source given) .code text.toList span
  | line (source : SourceId) {texts : List LiteralText} {line : List Char} {span : Span}
      (places : Segment.Places (texts.foldl LiteralState.consume .atStart).segments line span) :
      Places (.run source texts) .text line span

/-- The places that sums are taken for when an encounter is collected: those of the values that are trimmed
for a directive, and those of the lines of a run. -/
inductive Takes (walk : Walk) : Encounter → Span → Prop where
  | value (source : SourceId) {given : Directive} {name text : String} {span : Span}
      (trims : walk.Trims given name) (carries : given.Carries name text span) :
      Takes walk (.directive source given) span
  | line (source : SourceId) {texts : List LiteralText} {line : List Char} {span : Span}
      (places : Places (.run source texts) .text line span) : Takes walk (.run source texts) span

private theorem affords_iff {walk : Walk} {encounter : Encounter} :
    walk.affords encounter = true ↔ ∀ span, encounter.Takes walk span → span.IsWord := by
  cases encounter with
  | run source texts =>
    refine Emission.fits_places_iff.trans ⟨?_, ?_⟩
    · rintro words span ⟨⟩
      next places =>
        cases places with
        | line _ places => exact words _ span places
    · exact fun words line span places => words span (.line source (.line source places))
  | directive source given =>
    refine Walk.fits_trimmed_iff.trans ⟨?_, ?_⟩
    · rintro near span ⟨⟩
      next trims carries =>
        have stop : span.stop < offsetBound := Nat.lt_of_not_le fun far => near _ trims ⟨_, _, carries, far⟩
        obtain ⟨_, leading, _, _, _, _, _, _, _, _, rfl⟩ := carries
        exact ⟨Nat.lt_of_le_of_lt (Nat.le_add_right _ _) stop, stop⟩
    · rintro words name trims ⟨text, span, carries, far⟩
      exact Nat.not_lt.mpr far (words span (.value source trims carries)).stop
  | code source depth fragment => exact iff_of_true rfl nofun
  | refused source inclusion complaint => exact iff_of_true rfl nofun
  | expanded source inclusion target => exact iff_of_true rfl nofun

end Encounter

private theorem Walk.affordsAll_iff {macros : Macros} {walk : Walk} {encounters : List Encounter} :
    walk.affordsAll macros encounters = true ↔ ∀ earlier encounter later,
      encounters = earlier ++ encounter :: later → (earlier.foldl (gather macros) walk).affords encounter = true := by
  induction encounters generalizing walk with
  | nil => exact iff_of_true rfl fun earlier encounter later split => absurd split.symm (by simp)
  | cons first rest ih =>
    rw [affordsAll, Bool.and_eq_true, ih]
    constructor
    · rintro ⟨here, onward⟩ earlier encounter later split
      cases earlier with
      | nil =>
        cases split
        exact here
      | cons begun more =>
        cases split
        exact onward more encounter later rfl
    · intro each
      exact ⟨each [] first rest rfl, fun earlier encounter later split =>
        each (first :: earlier) encounter later (congrArg (first :: ·) split)⟩

namespace Session
variable {session : Session} {root : Template}

/-- The places that sums are taken for when a root is collected, each by a visit after those in front of it. -/
def Takes (session : Session) (root : Template) (span : Span) : Prop :=
  ∃ earlier visit later, session.encountersOf root = earlier ++ visit :: later ∧
    visit.Takes (earlier.foldl (Walk.gather session.macros) (Walk.start root.source)) span

theorem fits_iff : session.fits root = true ↔ ∀ span, session.Takes root span → span.IsWord := by
  rw [fits, Walk.affordsAll_iff]
  constructor
  · rintro affords span ⟨earlier, visit, later, split, takes⟩
    exact Encounter.affords_iff.mp (affords earlier visit later split) span takes
  · intro words earlier visit later split
    exact Encounter.affords_iff.mpr fun span takes => words span ⟨earlier, visit, later, split, takes⟩

theorem fits_eq_false_iff : session.fits root = false ↔ ∃ span, session.Takes root span ∧ ¬span.IsWord := by
  rw [← Bool.not_eq_true, fits_iff]
  push Not
  rfl

end Session

end TextTemplate
