import Mathlib.Data.List.Flatten
import TextTemplate.Proofs.EscapedUnits
import TextTemplate.Proofs.Provenance

/-! The sums of offsets behind a program: those of trimmed attribute values and of the lines of runs, both
counted from the start of a span that may be any. With room behind these starts no sum overflows. -/

namespace TextTemplate
open Text

theorem Span.fits_iff {span : Span} : span.fits = true ↔ span.IsWord := by
  rw [fits, Bool.and_eq_true, decide_eq_true_eq, decide_eq_true_eq]
  exact ⟨fun both => ⟨both.1, both.2⟩, fun word => ⟨word.start, word.stop⟩⟩

theorem Span.narrow_fits {span : Span} {first last : Nat} (ordered : first ≤ last)
    (room : span.start + last < offsetBound) : (span.narrow first last).fits = true :=
  fits_iff.mpr ⟨Nat.lt_of_le_of_lt (Nat.add_le_add_left ordered _) room, room⟩

theorem Attribute.trimmed?_eq {given : Attribute} {value : String × Span} (trimmed : given.trimmed? = some value) :
    value = (.ofList (trim given.value.toList),
      given.valueSpan.narrow (width (given.value.toList.takeWhile isBlank))
        (width (given.value.toList.takeWhile isBlank) + width (trim given.value.toList))) := by
  simp only [trimmed?] at trimmed
  split at trimmed
  · cases trimmed
  · exact (Option.some.inj trimmed).symm

theorem Attribute.mapped_trimmed {given : Attribute} {value : String × Span}
    (trimmed : given.trimmed? = some value) (source : SourceId) (kind : OriginKind) :
    Piece.mapped value.1 ⟨source, value.2, kind⟩ = ⟨value.1, some ⟨source, value.2, kind⟩⟩ := by
  simp only [trimmed?] at trimmed
  split at trimmed
  · cases trimmed
  next kept =>
    cases trimmed
    have wide := width_pos (fun nothing => kept (List.isEmpty_iff.mpr nothing))
    refine if_neg fun degenerate => ?_
    rcases Bool.or_eq_true_iff.mp degenerate with empty | empty
    · exact kept (List.isEmpty_iff.mpr (by simpa using empty))
    · have short := of_decide_eq_true empty
      simp only [Span.narrow] at short
      omega

theorem Emission.fits_iff {source : SourceId} {segments : List Segment} :
    (ofSegments source segments).fits = true ↔
      ∀ segment ∈ segments, ∀ earlier line later, segment.lines = earlier ++ line :: later →
        (segment.span.narrow (width earlier.flatten) (width earlier.flatten + width line)).fits = true := by
  constructor
  · intro fits segment pending earlier line later split
    have written := Segment.mapped_mem_writesFrom source segment.span 0 earlier later line
    rw [← split, Nat.zero_add] at written
    have piece := List.all_eq_true.mp fits _ (List.mem_flatMap.mpr ⟨segment, pending, written⟩)
    have long : line ≠ [] := ne_nil_of_mem_lineRuns (show line ∈ segment.lines by rw [split]; simp)
    have text : (String.ofList (Code.escapeChars line)).isEmpty = false := by
      cases line with
      | nil => exact absurd rfl long
      | cons c rest =>
        have first := Code.escapeChar_ne_nil c
        simp [Code.escapeChars, first]
    have span : (segment.span.narrow (width earlier.flatten) (width earlier.flatten + width line)).isEmpty = false := by
      have wide := width_pos long
      exact decide_eq_false (by simp only [Span.narrow]; omega)
    rw [Piece.mapped, text, span] at piece
    exact piece
  · intro lines
    refine List.all_eq_true.mpr fun piece member => ?_
    obtain ⟨segment, pending, written⟩ := List.mem_flatMap.mp member
    cases remembered : piece.origin? with
    | none => rfl
    | some origin =>
      rcases Segment.mem_writesFrom written with plain | ⟨earlier, line, later, split, rfl⟩
      · cases plain.symm.trans remembered
      · rw [Nat.zero_add] at remembered
        cases Piece.eq_of_mapped remembered
        exact lines segment pending earlier line later split

/-! ### Bundles with room -/

def Node.literal : Node → List Char
  | .text literal => literal.content.toList
  | _ => []

/-- Whether there is room for each attribute value behind its start, and for so many bytes behind that of a
text node. -/
def Node.isRoomy (literal : Nat) : Node → Bool
  | .directive given =>
    given.attributes.all fun valued => valued.valueSpan.start + width valued.value.toList < offsetBound
  | .text piece => piece.span.start + literal < offsetBound
  | .code _ => true
  | .inclusion _ => true

/-- Behind each text node there has to be room for all literal text of the template, of which any part may
follow in the same run. -/
def Template.isRoomy (template : Template) : Bool :=
  template.nodes.all (Node.isRoomy (width (template.nodes.flatMap Node.literal)))

def Bundle.isRoomy (bundle : Bundle) : Bool :=
  bundle.templates.all Template.isRoomy

private theorem width_sublist {part text : List Char} (sub : part.Sublist text) : width part ≤ width text := by
  induction sub with
  | slnil => exact Nat.le_refl _
  | cons c sub ih =>
    rw [width_cons]
    omega
  | cons_cons c sub ih =>
    rw [width_cons, width_cons]
    omega

private theorem Segment.extend_start {literal : LiteralText} {segments : List Segment} {segment : Segment}
    (member : segment ∈ extend literal segments) :
    segment.span.start = literal.span.start ∨ ∃ other ∈ segments, segment.span.start = other.span.start := by
  fun_induction extend literal segments with
  | case1 =>
    cases List.mem_singleton.mp member
    exact .inl rfl
  | case2 last touching =>
    cases List.mem_singleton.mp member
    exact .inr ⟨last, List.mem_cons_self, rfl⟩
  | case3 last apart =>
    rcases List.mem_cons.mp member with rfl | added
    · exact .inr ⟨_, List.mem_cons_self, rfl⟩
    · cases List.mem_singleton.mp added
      exact .inl rfl
  | case4 first rest more ih =>
    rcases List.mem_cons.mp member with rfl | later
    · exact .inr ⟨_, List.mem_cons_self, rfl⟩
    · rcases ih later with added | ⟨other, kept, same⟩
      · exact .inl added
      · exact .inr ⟨other, List.mem_cons_of_mem _ kept, same⟩

namespace LiteralState

private theorem consumeAll_start {texts : List LiteralText} {state : LiteralState} {segment : Segment}
    (member : segment ∈ (texts.foldl consume state).segments) :
    (∃ literal ∈ texts, segment.span.start = literal.span.start) ∨
      ∃ other ∈ state.segments, segment.span.start = other.span.start := by
  induction texts generalizing state with
  | nil => exact .inr ⟨segment, member, rfl⟩
  | cons literal rest ih =>
    rcases ih member with ⟨other, listed, same⟩ | ⟨other, pending, same⟩
    · exact .inl ⟨other, List.mem_cons_of_mem _ listed, same⟩
    · unfold consume at pending
      split at pending
      · exact .inr ⟨other, pending, same⟩
      · rcases Segment.extend_start pending with added | ⟨before, kept, unchanged⟩
        · exact .inl ⟨literal, List.mem_cons_self, same.trans added⟩
        · exact .inr ⟨before, kept, same.trans unchanged⟩

/-- The text of a segment is part of the literal text around it. -/
private theorem consumeAll_literal {texts : List LiteralText} {segment : Segment}
    (member : segment ∈ (texts.foldl consume .atStart).segments) :
    segment.text.toList.Sublist ((texts.map Node.text).flatMap Node.literal) := by
  have joined := congrArg String.toList (join_consumeAll texts .atStart)
  simp only [segments, List.map_nil, String.join_nil, String.empty_append, String.toList_join,
    List.flatMap_map] at joined
  rw [List.flatMap_map]
  exact joined ▸ List.sublist_flatten_of_mem (List.mem_map_of_mem member)

end LiteralState

private theorem Attribute.fits_of_room {given : Attribute}
    (room : given.valueSpan.start + width given.value.toList < offsetBound) : given.fits = true := by
  unfold fits
  cases trimmed : given.trimmed? with
  | none => rfl
  | some value =>
    rw [Option.all_some, Attribute.trimmed?_eq trimmed]
    obtain ⟨trailing, split, -⟩ := exists_trim given.value.toList
    rw [split, width_append, width_append] at room
    exact Span.narrow_fits (by omega) (by omega)

/-- In a bundle with room, no encounter takes a sum that overflows. -/
theorem Encounter.Excerpt.affords {bundle : Bundle} {encounter : Encounter} (excerpt : encounter.Excerpt bundle)
    (roomy : bundle.isRoomy = true) (walk : Walk) : walk.affords encounter = true := by
  obtain ⟨template, home, own⟩ := excerpt
  have room (node : Node) (listed : node ∈ encounter.nodes) :=
    List.all_eq_true.mp (List.all_eq_true.mp roomy template (List.mem_of_find?_eq_some home)) node (own.subset listed)
  cases encounter with
  | run source texts =>
    refine Emission.fits_iff.mpr fun segment pending earlier line later split => ?_
    have long := width_sublist ((LiteralState.consumeAll_literal pending).trans (own.sublist.flatMap Node.literal))
    rw [Segment.text_of_lines split, width_append, width_append] at long
    rcases LiteralState.consumeAll_start pending with ⟨literal, listed, start⟩ | ⟨other, none, -⟩
    · have behind := of_decide_eq_true (room _ (List.mem_map_of_mem listed))
      exact Span.narrow_fits (by omega) (by omega)
    · cases none
  | directive source given =>
    refine List.all_eq_true.mpr fun name _ => ?_
    cases named : given.attribute? name with
    | none => rfl
    | some valued =>
      have values : given.attributes.all _ = true := room _ (List.mem_singleton_self _)
      exact Attribute.fits_of_room
        (of_decide_eq_true (List.all_eq_true.mp values valued (List.mem_of_find?_eq_some named)))
  | code source depth fragment => rfl
  | refused source inclusion complaint => rfl
  | expanded source inclusion target => rfl

private theorem Walk.affordsAll_of_forall {encounters : List Encounter}
    (each : ∀ encounter ∈ encounters, ∀ walk : Walk, walk.affords encounter = true) (macros : Macros) (walk : Walk) :
    walk.affordsAll macros encounters = true := by
  induction encounters generalizing walk with
  | nil => rfl
  | cons encounter rest ih =>
    rw [affordsAll, each encounter List.mem_cons_self walk, Bool.true_and]
    exact ih (fun later member => each later (List.mem_cons_of_mem _ member)) _

theorem Session.fits_of_isRoomy {bundle : Bundle} (roomy : bundle.isRoomy = true) {session : Session}
    (reach : session.includes = bundle.includes) {root : Template} (home : bundle.find? root.source = some root) :
    session.fits root = true :=
  Walk.affordsAll_of_forall (fun encounter listed =>
    (encounters_excerpt reach home (List.suffix_refl _) encounter listed).affords roomy) _ _

end TextTemplate
