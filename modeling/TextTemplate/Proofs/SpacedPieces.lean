import TextTemplate.Proofs.CapturedBases
import TextTemplate.Proofs.DirectiveFates
import TextTemplate.Proofs.TracedCode

/-! Fixed text between the ranges of a program. Whatever is copied into a program has fixed text behind it,
be it only the end of a line, so no two recorded ranges touch. -/

namespace TextTemplate

/-- Behind each piece that is recorded stands text that is not. -/
inductive Piece.Spaced : List Piece → Prop where
  | nil : Spaced []
  | fixed {piece : Piece} {rest : List Piece} (unrecorded : piece.recorded? = none) (behind : Spaced rest) :
      Spaced (piece :: rest)
  | closed {piece next : Piece} {rest : List Piece} (unrecorded : next.recorded? = none) (text : next.text ≠ "")
      (behind : Spaced rest) : Spaced (piece :: next :: rest)

namespace Piece

theorem Spaced.append {front back : List Piece} (spaced : Spaced front) (behind : Spaced back) :
    Spaced (front ++ back) := by
  induction spaced with
  | nil => exact behind
  | fixed unrecorded _ ih => exact .fixed unrecorded ih
  | closed unrecorded text _ ih => exact .closed unrecorded text ih

theorem Spaced.flatMap {α : Type} {items : List α} {pieces : α → List Piece}
    (each : ∀ item ∈ items, Spaced (pieces item)) : Spaced (items.flatMap pieces) := by
  induction items with
  | nil => exact .nil
  | cons item rest ih =>
    rw [List.flatMap_cons]
    exact (each item List.mem_cons_self).append (ih fun other member => each other (List.mem_cons_of_mem _ member))

theorem Spaced.plain (text : String) {rest : List Piece} (behind : Spaced rest) : Spaced (.plain text :: rest) :=
  .fixed rfl behind

theorem Spaced.written (piece : Piece) {text : String} (nonempty : text ≠ "") {rest : List Piece}
    (behind : Spaced rest) : Spaced (piece :: .plain text :: rest) :=
  .closed rfl nonempty behind

end Piece

open Piece (Spaced)

/-- Ranges recorded of such pieces do not touch. -/
theorem projectionsFrom_spaced {pieces : List Piece} (spaced : Spaced pieces) (position line : Nat) :
    (projectionsFrom position line pieces).Pairwise fun first second =>
      first.generated.stop < second.generated.start := by
  induction spaced generalizing position line with
  | nil => exact .nil
  | fixed unrecorded _ ih =>
    rw [projectionsFrom, unrecorded]
    exact ih _ _
  | @closed piece next rest unrecorded text _ ih =>
    have wide : 0 < next.text.utf8ByteSize := by
      rw [← Text.width_toList]
      exact Text.width_pos (by simpa using text)
    rw [projectionsFrom, projectionsFrom, unrecorded]
    refine List.pairwise_append.mpr ⟨?_, ih _ _, ?_⟩
    · cases piece.recorded? with
      | none => exact .nil
      | some origin => exact List.pairwise_singleton _ _
    · intro first early second late
      simp only [Option.mem_toList, Option.map_eq_some_iff] at early
      obtain ⟨origin, -, rfl⟩ := early
      have behind := le_start_of_mem_projectionsFrom late
      dsimp only
      omega

private theorem Segment.writesFrom_spaced (source : SourceId) (span : Span) (offset : Nat) (lines : List (List Char)) :
    Spaced (writesFrom source span offset lines) := by
  induction lines generalizing offset with
  | nil => exact .nil
  | cons line rest ih => exact .plain _ (.written _ (by decide) (ih _))

private theorem Emission.ofSegments_spaced (source : SourceId) (segments : List Segment) :
    Spaced (ofSegments source segments).pieces :=
  Spaced.flatMap fun segment _ => Segment.writesFrom_spaced source segment.span 0 segment.lines

/-- The sections of a frame are spaced, but for the base class, behind which the program ends the line. -/
def Frame.Spaced (frame : Frame) : Prop :=
  ∀ kind, kind ≠ .baseClass → Piece.Spaced (frame.part kind).pieces

private theorem Frame.appendAll_pieces (frame : Frame) (target kind : SectionKind) (pieces : List Piece) :
    ((frame.appendAll target pieces).part kind).pieces =
      (frame.part kind).pieces ++ if target = kind then pieces else [] := by
  induction pieces generalizing frame with
  | nil => rw [ite_self, List.append_nil]; rfl
  | cons piece rest ih =>
    rw [appendAll, List.foldl_cons, ← appendAll, ih, append_pieces, List.append_assoc]
    split <;> rfl

namespace Frame.Spaced
variable {frame : Frame}

private theorem new (source : SourceId) : (Frame.new source).Spaced := by
  intro kind _
  cases kind <;> exact .nil

private theorem of_eq (spaced : frame.Spaced) {other : Frame}
    (same : ∀ kind, kind ≠ .baseClass → other.part kind = frame.part kind) : other.Spaced := by
  intro kind apart
  rw [same kind apart]
  exact spaced kind apart

theorem grow (spaced : frame.Spaced) {other : Frame} (target : SectionKind) {pieces : List Piece}
    (more : Piece.Spaced pieces)
    (grown : ∀ kind, kind ≠ .baseClass →
      (other.part kind).pieces = (frame.part kind).pieces ++ if target = kind then pieces else []) :
    other.Spaced := by
  intro kind apart
  rw [grown kind apart]
  apply (spaced kind apart).append
  split
  · exact more
  · exact .nil

private theorem appendAll (spaced : frame.Spaced) (target : SectionKind) {pieces : List Piece}
    (more : Piece.Spaced pieces) :
    (frame.appendAll target pieces).Spaced :=
  spaced.grow target more fun kind _ => frame.appendAll_pieces target kind pieces

private theorem appendEmission (spaced : frame.Spaced) (source : SourceId) (segments : List Segment) :
    (frame.appendEmission (Emission.ofSegments source segments)).Spaced := by
  apply spaced.grow .transformation (Emission.ofSegments_spaced source segments)
  intro kind apart
  cases kind with
  | transformation => rfl
  | baseClass => exact absurd rfl apart
  | imports | parameters | feature => exact (List.append_nil _).symm

end Frame.Spaced

namespace Walk
variable {walk : Walk} {macros : Macros} {source : SourceId} {given : Directive}

private theorem declaration_spaced (typeName name : String × Span) : Spaced (declaration source typeName name) := by
  unfold declaration
  refine Spaced.append ?_ (.written _ (by decide) .nil)
  refine Spaced.append (.plain _ (.plain _ (.written _ (by decide) .nil))) ?_
  split
  · exact .plain _ .nil
  · exact .nil

private theorem Applied.spaced {kind : DirectiveKind} {after : Walk}
    (applied : walk.Applied macros source given kind after)
    (spaced : walk.current.Spaced) : after.current.Spaced := by
  cases applied with
  | @imported name span named =>
    have imported : Spaced [⟨"using ", none⟩, ⟨name, some ⟨source, span, .code⟩⟩, ⟨";\n", none⟩] :=
      .plain _ (.written _ (by decide) .nil)
    apply spaced.grow .imports imported
    intro kind apart
    cases kind with
    | imports => rfl
    | baseClass => exact absurd rfl apart
    | transformation | parameters | feature => exact (List.append_nil _).symm
  | declared typed named =>
    apply spaced.grow .parameters (declaration_spaced _ _)
    intro kind apart
    cases kind with
    | parameters => rfl
    | baseClass => exact absurd rfl apart
    | transformation | imports | feature => exact (List.append_nil _).symm
  | referred named => exact spaced
  | extended => exact spaced
  | inherited first =>
    apply spaced.of_eq
    intro kind apart
    cases kind with
    | baseClass => exact absurd rfl apart
    | imports | parameters | transformation | feature => rfl
  | passed later => exact spaced

private theorem visitDirective_spaced (spaced : walk.current.Spaced) :
    (walk.visitDirective macros source given).current.Spaced := by
  have leaves : walk.Leaves macros source given _ _ := visitDirective_leaves given.fares_fate
  generalize walk.visitDirective macros source given = after at leaves ⊢
  cases decided : given.fate with
  | ignored =>
    rw [decided] at leaves
    exact leaves ▸ spaced
  | refused complaint =>
    rw [decided] at leaves
    obtain ⟨problem, rfl⟩ := leaves.refused
    exact spaced
  | applied kind =>
    rw [decided] at leaves
    exact leaves.1.spaced spaced

private theorem visitCode_spaced (spaced : walk.current.Spaced) (fragment : CodeFragment) :
    (walk.visitCode source fragment).current.Spaced := by
  unfold visitCode
  split
  · exact spaced
  · cases fragment.kind with
    | expression => exact spaced.appendAll _ (.plain _ (.written _ (by decide) .nil))
    | feature => exact spaced.appendAll _ (.written _ (by decide) .nil)
    | statement => exact spaced.appendAll _ (.written _ (by decide) .nil)

private theorem gatherAll_spaced (spaced : walk.current.Spaced) (encounters : List Encounter) :
    (encounters.foldl (gather macros) walk).current.Spaced := by
  induction encounters generalizing walk with
  | nil => exact spaced
  | cons encounter rest ih =>
    apply ih
    cases encounter with
    | run source texts => exact spaced.appendEmission _ _
    | directive source given =>
      have checked : walk.check.current.Spaced := spaced
      exact visitDirective_spaced checked
    | code source depth fragment =>
      have leveled : Frame.Spaced ({ walk.check with depth } : Walk).current := spaced
      exact visitCode_spaced leveled fragment
    | refused source inclusion complaint => exact spaced
    | expanded source inclusion target => exact spaced

end Walk

private theorem Session.gathered_spaced (session : Session) (root : Template) : (session.gathered root).frame.Spaced :=
  Walk.gatherAll_spaced (Frame.Spaced.new root.source) _

private theorem Session.gathered_inStep (session : Session) (root : Template) : (session.gathered root).frame.InStep :=
  Walk.gatherAll_preserves (fun _ _ _ inStep => inStep.of_eq rfl rfl) (fun _ effect inStep => inStep.change effect)
    session.macros _ _ (Frame.inStep_new root.source)

namespace Draft

def Spaces (before after : Draft) : Prop :=
  ∃ pieces, Wrote before pieces after ∧ Spaced pieces

variable {before middle after : Draft}

theorem Spaces.refl (draft : Draft) : Spaces draft draft := ⟨[], .nothing draft, .nil⟩

theorem Spaces.trans (spaces : Spaces before middle) (more : Spaces middle after) : Spaces before after := by
  obtain ⟨front, wrote, spaced⟩ := spaces
  obtain ⟨back, continued, behind⟩ := more
  exact ⟨front ++ back, wrote.trans continued, spaced.append behind⟩

theorem Spaces.write (spaces : Spaces before after) (text : String) : Spaces before (after.write text) :=
  spaces.trans ⟨[.plain text], .piece after (.plain text), .plain text .nil⟩

theorem Spaces.writeSection (spaces : Spaces before after) {next : Section} (spaced : Spaced next.pieces) :
    Spaces before (after.writeSection next) :=
  spaces.trans ⟨next.pieces, .pieces after next.pieces, spaced⟩

private theorem Spaces.endLineAfter (spaces : Spaces before after) (last : Section) :
    Spaces before (after.endLineAfter last) := by
  unfold Draft.endLineAfter
  split
  · exact spaces
  · exact spaces.write "\n"

private theorem Spaces.close (spaces : Spaces before after) {last : Section} (single : last.pieces.length ≤ 1)
    {text : String} (nonempty : text ≠ "") : Spaces before ((after.writeSection last).write text) := by
  have wrote := (Wrote.pieces after last.pieces).trans (.piece _ (.plain text))
  refine spaces.trans ⟨last.pieces ++ [.plain text], wrote, ?_⟩
  match pieces : last.pieces with
  | [] => exact .plain text .nil
  | [piece] => exact .written piece nonempty .nil
  | _ :: _ :: _ =>
    rw [pieces] at single
    exact absurd single (by simp)

end Draft

namespace Program
open Draft

variable {frame : Frame}

private theorem writeHead_spaces (inStep : frame.InStep) (spaced : frame.Spaced) (options : Options) (draft : Draft) :
    Spaces draft (writeHead frame options draft) := by
  unfold writeHead
  apply Spaces.write
  apply Spaces.write
  refine Spaces.writeSection ?_ (spaced .parameters nofun)
  apply Spaces.write
  split
  · exact ((Spaces.refl draft).write _).close inStep.single (by decide)
  · exact (((Spaces.refl draft).write _).write (fallbackBase options)).write _

private theorem writeBody_spaces (spaced : frame.Spaced) (draft : Draft) : Spaces draft (writeBody frame draft) := by
  unfold writeBody
  apply Spaces.write
  apply Spaces.endLineAfter
  refine Spaces.writeSection ?_ (spaced .feature nofun)
  apply Spaces.write
  apply Spaces.endLineAfter
  exact (Spaces.refl draft).writeSection (spaced .transformation nofun)

private theorem layout_spaces (inStep : frame.InStep) (spaced : frame.Spaced) (options : Options) :
    Spaces {} (layout frame options) := by
  unfold layout
  apply Spaces.write
  apply Spaces.write
  refine Spaces.trans ?_ (writeBody_spaces spaced _)
  refine Spaces.trans ?_ (writeHead_spaces inStep spaced options _)
  apply Spaces.write
  exact (((Spaces.refl {}).write _).write "using System;\n").writeSection (spaced .imports nofun)

end Program

/-- No two ranges of a generated program touch, whatever source they come from. -/
theorem Bundle.table_spaced {bundle : Bundle} {options : Options} {program : Program}
    (generated : bundle.generate options = .ok program) :
    program.table.entries.toList.Pairwise fun first second => first.generated.stop < second.generated.start := by
  obtain ⟨root, -, rfl⟩ := generate_gathered generated
  obtain ⟨pieces, wrote, spaced⟩ := Program.layout_spaces (Session.gathered_inStep _ root)
    (Session.gathered_spaced _ root) _
  rw [Program.assemble, wrote.entries]
  exact projectionsFrom_spaced spaced 0 0

end TextTemplate
