import TextTemplate.Proofs.HostedCode
import TextTemplate.Proofs.RecordedPieces
import TextTemplate.Proofs.SpacedPieces
import TextTemplate.Proofs.TiledTexts

/-! The generated code that is placed around the code of a template. Injections take the ranges of a source
as they stand in it, and place what lies between the end of one and the start of the next. Where the next
was generated further in front they go back, and what they went back over is placed once more. -/

namespace TextTemplate
open Text

def Span.holds (span : Span) (code : String) (offset : Nat) : Bool :=
  (span.slice? code).isSome && span.contains offset

def Span.Apart (code : String) (spans : List Span) : Prop :=
  spans.Pairwise fun first second => ∀ offset, ¬(first.holds code offset = true ∧ second.holds code offset = true)

namespace Span
variable {span : Span} {code : String} {offset : Nat}

theorem contains_of_holds (held : span.holds code offset = true) : span.contains offset = true :=
  (Bool.and_eq_true_iff.mp held).2

private theorem lt_size_of_holds (held : span.holds code offset = true) : offset < code.utf8ByteSize := by
  obtain ⟨sliced, within⟩ := Bool.and_eq_true_iff.mp held
  rw [slice?, Option.isSome_map] at sliced
  obtain ⟨part, found⟩ := Option.isSome_iff_exists.mp sliced
  have bound : span.stop ≤ width code.toList := Covers.stop_le (slice?_eq_some_iff.mp found)
  rw [width_toList] at bound
  exact Nat.lt_of_lt_of_le (contains_iff.mp within).2 bound

theorem holds_of_boundaries (starts : IsBoundary code.toList span.start) (stops : IsBoundary code.toList span.stop)
    (within : span.contains offset = true) : span.holds code offset = true := by
  have inside := contains_iff.mp within
  have sliced := starts.slice?_isSome stops (Nat.le_of_lt (Nat.lt_of_le_of_lt inside.1 inside.2))
  rw [holds, slice?, Option.isSome_map, sliced, within]
  rfl

theorem countP_holds_eq_zero (beyond : ¬offset < code.utf8ByteSize) (spans : List Span) :
    spans.countP (·.holds code offset) = 0 :=
  List.countP_eq_zero.mpr fun _ _ held => beyond (lt_size_of_holds held)

theorem apart_iff {spans : List Span} :
    Apart code spans ↔ ∀ offset, spans.countP (·.holds code offset) ≤ 1 := by
  induction spans with
  | nil => exact ⟨fun _ _ => Nat.zero_le _, fun _ => .nil⟩
  | cons span rest ih =>
    rw [Apart, List.pairwise_cons]
    constructor
    · rintro ⟨alone, apart⟩ offset
      have others := ih.mp apart offset
      rw [List.countP_cons]
      split
      next held =>
        have none : rest.countP (·.holds code offset) = 0 :=
          List.countP_eq_zero.mpr fun other member also => alone other member offset ⟨held, also⟩
        omega
      next => exact others
    · intro once
      constructor
      · rintro other member offset ⟨held, also⟩
        have two := once offset
        have one : 0 < rest.countP (·.holds code offset) := List.countP_pos_iff.mpr ⟨other, member, also⟩
        rw [List.countP_cons, if_pos held] at two
        omega
      · apply ih.mpr
        intro offset
        exact Nat.le_trans (List.Sublist.countP_le (List.sublist_cons_self span rest)) (once offset)

end Span

namespace ProjectionTable

/-- The generated code around the ranges: from where one ended to where the next starts, and at last to `stop`. -/
def stretches (stop : Nat) : Nat → List Projection → List Span
  | done, [] => [⟨done, stop⟩]
  | done, entry :: rest => ⟨done, entry.generated.start⟩ :: stretches stop entry.generated.stop rest

/-- How many times one goes back over an offset on the way from each range to the next. -/
def turns (offset : Nat) : Nat → List Projection → Nat
  | _, [] => 0
  | done, entry :: rest =>
    (if entry.generated.start ≤ offset ∧ offset < done then 1 else 0) + turns offset entry.generated.stop rest

def Aligned (code : String) (ranges : List Projection) : Prop :=
  ∀ entry ∈ ranges, IsBoundary code.toList entry.generated.start ∧ IsBoundary code.toList entry.generated.stop

def Separate (ranges : List Projection) : Prop :=
  ranges.Pairwise fun first second =>
    first.generated.stop < second.generated.start ∨ second.generated.stop < first.generated.start

def InOrder (ranges : List Projection) : Prop :=
  ranges.Pairwise fun first second => first.generated.stop ≤ second.generated.start

variable {code text : String} {ranges : List Projection} {offset stop : Nat}

private theorem codeBetween_ne_empty {span : Span} (held : span.holds code offset = true) :
    codeBetween code span.start span.stop ≠ "" := by
  obtain ⟨sliced, within⟩ := Bool.and_eq_true_iff.mp held
  rw [Span.slice?, Option.isSome_map] at sliced
  obtain ⟨part, found⟩ := Option.isSome_iff_exists.mp sliced
  have reached : span.stop = span.start + width part := Span.Covers.stop_eq (slice?_eq_some_iff.mp found)
  have inside := Span.contains_iff.mp within
  rw [codeBetween, found]
  intro empty
  rw [String.ofList_eq_empty_iff.mp empty, width_nil] at reached
  omega

/-- The injections of ranges place the stretches around them, in this order and nothing else. -/
theorem injectionsFrom_stretches (done : Nat) (nonempty : ranges ≠ []) :
    ∃ front last, injectionsFrom code text done ranges = front ++ [last] ∧
      (∀ injection ∈ front, injection.after = "") ∧
      front.map Injection.before ++ [last.before, last.after] =
        (stretches code.utf8ByteSize done ranges).map fun span => (span.slice? code).getD "" := by
  induction ranges generalizing done with
  | nil => exact absurd rfl nonempty
  | cons entry rest ih =>
    cases rest with
    | nil => exact ⟨[], _, rfl, List.forall_mem_nil _, rfl⟩
    | cons next more =>
      obtain ⟨front, last, split, bare, placed⟩ := ih entry.generated.stop (List.cons_ne_nil next more)
      refine ⟨_ :: front, last, congrArg (_ :: ·) split, ?_, congrArg (_ :: ·) placed⟩
      intro injection member
      rcases List.mem_cons.mp member with rfl | later
      · rfl
      · exact bare injection later

/-- Whichever way one goes through forward ranges: one comes by an offset as often as one goes back over it,
and once more. -/
theorem countP_stretches (done : Nat) (inside : offset < stop)
    (forward : ∀ entry ∈ ranges, entry.generated.start ≤ entry.generated.stop) :
    (stretches stop done ranges).countP (·.contains offset) + ranges.countP (·.generated.contains offset) +
      (if offset < done then 1 else 0) = 1 + turns offset done ranges := by
  induction ranges generalizing done with
  | nil =>
    simp only [stretches, turns, List.countP_cons, List.countP_nil, Span.contains_iff]
    split <;> split <;> omega
  | cons entry rest ih =>
    have order := forward entry List.mem_cons_self
    have later := ih entry.generated.stop fun other member => forward other (List.mem_cons_of_mem _ member)
    have balance :
        (if done ≤ offset ∧ offset < entry.generated.start then 1 else 0) +
          (if entry.generated.start ≤ offset ∧ offset < entry.generated.stop then 1 else 0) +
          (if offset < done then 1 else 0) =
        (if offset < entry.generated.stop then 1 else 0) +
          (if entry.generated.start ≤ offset ∧ offset < done then 1 else 0) := by
      grind
    simp only [stretches, turns, List.countP_cons, Span.contains_iff]
    omega

theorem stretches_boundaries {done : Nat} (starts : IsBoundary code.toList done) (aligned : Aligned code ranges) :
    ∀ span ∈ stretches code.utf8ByteSize done ranges,
      IsBoundary code.toList span.start ∧ IsBoundary code.toList span.stop := by
  induction ranges generalizing done with
  | nil =>
    intro span member
    cases List.mem_singleton.mp member
    exact ⟨starts, code.toList, [], (List.append_nil _).symm, (width_toList code).symm⟩
  | cons entry rest ih =>
    have ends := aligned entry List.mem_cons_self
    intro span member
    rcases List.mem_cons.mp member with rfl | later
    · exact ⟨starts, ends.1⟩
    · exact ih ends.2 (fun other member => aligned other (List.mem_cons_of_mem _ member)) span later

theorem isBoundary_zero : IsBoundary code.toList 0 := ⟨[], code.toList, rfl, rfl⟩

private theorem countP_holds (aligned : Aligned code ranges) (offset : Nat) :
    (stretches code.utf8ByteSize 0 ranges).countP (·.holds code offset) =
      (stretches code.utf8ByteSize 0 ranges).countP (·.contains offset) := by
  apply List.countP_congr
  intro span member
  obtain ⟨starts, stops⟩ := stretches_boundaries isBoundary_zero aligned span member
  exact ⟨Span.contains_of_holds, Span.holds_of_boundaries starts stops⟩

/-- Each byte of the code is in as many stretches and ranges as one goes back over it, and in one more. -/
theorem countP_placed (inside : offset < code.utf8ByteSize)
    (forward : ∀ entry ∈ ranges, entry.generated.start ≤ entry.generated.stop)
    (aligned : Aligned code ranges) :
    (stretches code.utf8ByteSize 0 ranges).countP (·.holds code offset) +
      ranges.countP (·.generated.contains offset) = 1 + turns offset 0 ranges := by
  have counted := countP_stretches 0 inside forward
  rw [if_neg (Nat.not_lt_zero offset), Nat.add_zero] at counted
  rw [countP_holds aligned, counted]

theorem apart_iff_turns (forward : ∀ entry ∈ ranges, entry.generated.start ≤ entry.generated.stop)
    (aligned : Aligned code ranges) :
    Span.Apart code (stretches code.utf8ByteSize 0 ranges) ↔
      ∀ offset < code.utf8ByteSize, turns offset 0 ranges ≤ ranges.countP (·.generated.contains offset) := by
  rw [Span.apart_iff]
  constructor
  · intro once offset inside
    have placed := countP_placed inside forward aligned
    have single := once offset
    omega
  · intro few offset
    by_cases inside : offset < code.utf8ByteSize
    · have placed := countP_placed inside forward aligned
      have covered := few offset inside
      omega
    · rw [Span.countP_holds_eq_zero inside]
      exact Nat.zero_le 1

private theorem InOrder.turns_eq_zero {done : Nat} (inOrder : InOrder ranges)
    (ahead : ∀ entry ∈ ranges, done ≤ entry.generated.start) (offset : Nat) : turns offset done ranges = 0 := by
  induction ranges generalizing done with
  | nil => rfl
  | cons entry rest ih =>
    obtain ⟨behind, rest⟩ := List.pairwise_cons.mp inOrder
    have front := ahead entry List.mem_cons_self
    rw [turns, ih rest behind, if_neg (by omega)]

/-- Of ranges that were generated as they are listed the stretches are apart, wherever the ranges are. -/
theorem InOrder.apart (inOrder : InOrder ranges)
    (forward : ∀ entry ∈ ranges, entry.generated.start ≤ entry.generated.stop) :
    Span.Apart code (stretches code.utf8ByteSize 0 ranges) := by
  apply Span.apart_iff.mpr
  intro offset
  by_cases inside : offset < code.utf8ByteSize
  · have placed := countP_stretches 0 inside forward
    have straight := inOrder.turns_eq_zero (fun entry _ => Nat.zero_le entry.generated.start) offset
    have fewer : (stretches code.utf8ByteSize 0 ranges).countP (·.holds code offset) ≤
        (stretches code.utf8ByteSize 0 ranges).countP (·.contains offset) :=
      List.countP_mono_left fun _ _ held => Span.contains_of_holds held
    omega
  · rw [Span.countP_holds_eq_zero inside]
    exact Nat.zero_le 1

/-- Where ranges that do not touch are out of order, one goes back over the end of one of them. -/
theorem exists_turn (done : Nat) (forward : ∀ entry ∈ ranges, entry.generated.start < entry.generated.stop)
    (separate : Separate ranges) (crossed : ¬InOrder ranges) :
    ∃ first ∈ ranges, ∃ second ∈ ranges, first.generated.stop < second.generated.stop ∧
      0 < turns first.generated.stop done ranges := by
  induction ranges generalizing done with
  | nil => exact absurd .nil crossed
  | cons entry rest ih =>
    obtain ⟨apart, others⟩ := List.pairwise_cons.mp separate
    have own := forward entry List.mem_cons_self
    have later : ∀ other ∈ rest, other.generated.start < other.generated.stop := fun other member =>
      forward other (List.mem_cons_of_mem _ member)
    by_cases behind : InOrder rest
    · cases rest with
      | nil => exact absurd (List.pairwise_singleton _ entry) crossed
      | cons next more =>
        have ahead := later next List.mem_cons_self
        have back : next.generated.stop < entry.generated.start := by
          rcases apart next List.mem_cons_self with passed | back
          · refine absurd (List.pairwise_cons.mpr ⟨?_, behind⟩) crossed
            intro other member
            rcases List.mem_cons.mp member with rfl | among
            · exact Nat.le_of_lt passed
            · have after := (List.pairwise_cons.mp behind).1 other among
              omega
          · exact back
        refine ⟨next, List.mem_cons_of_mem _ List.mem_cons_self, entry, List.mem_cons_self, by omega, ?_⟩
        rw [turns, turns, if_pos (show next.generated.start ≤ next.generated.stop ∧
          next.generated.stop < entry.generated.stop by omega)]
        omega
    · obtain ⟨first, here, second, there, before, turned⟩ := ih entry.generated.stop later others behind
      refine ⟨first, List.mem_cons_of_mem _ here, second, List.mem_cons_of_mem _ there, before, ?_⟩
      rw [turns]
      omega

private theorem inOrder_of_apart (forward : ∀ entry ∈ ranges, entry.generated.start < entry.generated.stop)
    (aligned : Aligned code ranges) (separate : Separate ranges)
    (apart : Span.Apart code (stretches code.utf8ByteSize 0 ranges)) : InOrder ranges := by
  by_contra crossed
  obtain ⟨first, here, second, there, before, turned⟩ := exists_turn 0 forward separate crossed
  have inside : first.generated.stop < code.utf8ByteSize := by
    obtain ⟨front, back, split, stop⟩ := (aligned second there).2
    have whole := width_toList code
    rw [split, width_append] at whole
    omega
  have free : ranges.countP (·.generated.contains first.generated.stop) = 0 := by
    apply List.countP_eq_zero.mpr
    intro other member within
    have around := Span.contains_iff.mp within
    have own := forward first here
    rcases pairwise_cases separate here member with (_ | _) | rfl | (_ | _) <;> omega
  have few := (apart_iff_turns (fun entry member => Nat.le_of_lt (forward entry member)) aligned).mp apart _ inside
  omega

end ProjectionTable

namespace Bundle
open ProjectionTable
variable {bundle : Bundle} {options : Options} {program : Program} {source : SourceId}

theorem entry_forward (generated : bundle.generate options = .ok program) {entry : Projection}
    (member : entry ∈ program.table.entries) : entry.generated.start < entry.generated.stop := by
  obtain ⟨piece, records⟩ := entry_records generated member
  have long : 0 < width piece.text.toList :=
    width_pos (by simpa using (Piece.recorded?_eq_some records.recorded).2.1)
  have stop := records.covers.stop_eq
  omega

theorem codeRanges_aligned (generated : bundle.generate options = .ok program) :
    Aligned program.code (program.table.codeRanges source) := by
  intro entry member
  obtain ⟨piece, records⟩ := entry_records generated (mem_codeRanges.mp member).1
  obtain ⟨before, after, split, start, stop⟩ := records.covers
  refine ⟨⟨before, _, split, start⟩, before ++ piece.text.toList, after, ?_, ?_⟩
  · rw [split, List.append_assoc]
  · rw [stop, width_append]

private theorem codeRanges_separate (generated : bundle.generate options = .ok program) :
    Separate (program.table.codeRanges source) := by
  refine ((List.mergeSort_perm _ _).pairwise_iff Or.symm).mpr ?_
  exact ((table_spaced generated).sublist (List.filter_sublist.trans List.filter_sublist)).imp Or.inl

private theorem codeInOrder_iff_inOrder (generated : bundle.generate options = .ok program) :
    program.table.CodeInOrder source ↔ InOrder (program.table.codeRanges source) := by
  have forward : ∀ entry ∈ program.table.codeRanges source, entry.generated.start < entry.generated.stop :=
    fun entry member => entry_forward generated (mem_codeRanges.mp member).1
  rw [codeInOrder_iff (table_ordered generated) forward]
  constructor
  · intro increasing
    refine increasing.imp_of_mem fun here there before => ?_
    exact (table_ordered generated).stop_le_start (mem_codeRanges.mp here).1 (mem_codeRanges.mp there).1 before
  · intro inOrder
    exact inOrder.imp_of_mem fun here _ apart => Nat.lt_of_lt_of_le (forward _ here) apart

/-- In a program the stretches around the code of a source are apart in no other order than its own. -/
theorem stretches_apart_iff (generated : bundle.generate options = .ok program) :
    Span.Apart program.code (stretches program.code.utf8ByteSize 0 (program.table.codeRanges source)) ↔
      program.table.CodeInOrder source := by
  have forward : ∀ entry ∈ program.table.codeRanges source, entry.generated.start < entry.generated.stop :=
    fun entry member => entry_forward generated (mem_codeRanges.mp member).1
  rw [codeInOrder_iff_inOrder generated]
  constructor
  · intro apart
    exact inOrder_of_apart forward (codeRanges_aligned generated) (codeRanges_separate generated) apart
  · intro inOrder
    exact inOrder.apart fun entry member => Nat.le_of_lt (forward entry member)

end Bundle

/-- Injections place the stretches around the ranges of a source, in this order and nothing else. They are
apart if the ranges were generated as they stand in the source. In general each byte of the code is in as many
stretches and ranges as one goes back over it on the way from range to range, and in one more; so the
stretches are apart exactly if one goes back over no byte more often than there are ranges with it. In a
generated program one goes back over fixed text as well, so they are apart in no order but that of the source. -/
theorem ProjectionTable.stretches_placed (table : ProjectionTable) (ordered : table.Ordered) (code : String)
    (source : SourceId) (text : String) :
    let ranges := table.codeRanges source
    let spans := stretches code.utf8ByteSize 0 ranges
    (ranges = [] → table.injections code source text = []) ∧
    (ranges ≠ [] → ∃ front last, table.injections code source text = front ++ [last] ∧
      (∀ injection ∈ front, injection.after = "") ∧
      front.map Injection.before ++ [last.before, last.after] =
        spans.map fun span => (span.slice? code).getD "") ∧
    (InOrder ranges → Span.Apart code spans) ∧
    (Aligned code ranges →
      (∀ offset < code.utf8ByteSize,
        spans.countP (·.holds code offset) + ranges.countP (·.generated.contains offset) =
          1 + turns offset 0 ranges) ∧
      (Span.Apart code spans ↔ ∀ offset < code.utf8ByteSize,
        turns offset 0 ranges ≤ ranges.countP (·.generated.contains offset))) ∧
    ∀ (bundle : Bundle) (options : Options) (program : Program), bundle.generate options = .ok program →
      program.table = table → program.code = code →
        Aligned code ranges ∧ (Span.Apart code spans ↔ table.CodeInOrder source) := by
  intro ranges spans
  have forward : ∀ entry ∈ ranges, entry.generated.start ≤ entry.generated.stop := fun entry member =>
    ordered.forward entry (Array.mem_toList_iff.mpr (mem_codeRanges.mp member).1)
  refine ⟨?_, fun nonempty => injectionsFrom_stretches 0 nonempty, fun inOrder => inOrder.apart forward, ?_, ?_⟩
  · intro empty
    show injectionsFrom code text 0 ranges = []
    rw [empty, injectionsFrom]
  · intro aligned
    exact ⟨fun offset inside => countP_placed inside forward aligned, apart_iff_turns forward aligned⟩
  · rintro bundle options program generated rfl rfl
    exact ⟨Bundle.codeRanges_aligned generated, Bundle.stretches_apart_iff generated⟩

namespace Bundle
open ProjectionTable

def lateImportsRoot : Template :=
  .build ⟨"a.tt"⟩ [.code .statement "x();", .directive "import" [("namespace", "A")],
    .directive "import" [("namespace", "B")]]

def lateImports : Bundle := ⟨⟨"a.tt"⟩, [lateImportsRoot], .empty⟩

private theorem mergeSort_last_first {first second last : Projection}
    (sorted : first.origin.span.start ≤ second.origin.span.start)
    (before : last.origin.span.start < first.origin.span.start) :
    ([first, second, last].mergeSort fun left right => left.origin.span.start ≤ right.origin.span.start) =
      [last, first, second] := by
  simp [List.mergeSort, List.MergeSort.Internal.splitInTwo, sorted, Nat.not_le.mpr before]

theorem lateImports_generate : ∃ program, lateImports.generate {} = .ok program ∧
    program.code.utf8ByteSize = 375 ∧
    program.table.codeRanges ⟨"a.tt"⟩ =
      [⟨⟨296, 300⟩, ⟨⟨"a.tt"⟩, ⟨2, 6⟩, .code⟩, 9⟩, ⟨⟨20, 21⟩, ⟨⟨"a.tt"⟩, ⟨30, 31⟩, .code⟩, 1⟩,
        ⟨⟨29, 30⟩, ⟨⟨"a.tt"⟩, ⟨57, 58⟩, .code⟩, 2⟩] := by
  refine ⟨_, generate_of_root (show lateImports.find? lateImports.root = some lateImportsRoot by decide)
    (by decide) {}, ?_⟩
  have nodes : lateImportsRoot.nodes = [.code ⟨.statement, "x();", ⟨2, 6⟩, ⟨0, 8⟩⟩,
      .directive ⟨"import", ⟨12, 18⟩, [⟨"namespace", "A", ⟨30, 31⟩⟩], ⟨8, 35⟩⟩,
      .directive ⟨"import", ⟨39, 45⟩, [⟨"namespace", "B", ⟨57, 58⟩⟩], ⟨35, 62⟩⟩] := by
    decide
  rw [Session.gathered, Session.encountersOf, nodes, Session.encounters, Session.encounters, Session.encounters,
    Session.encounters]
  refine ⟨by decide +kernel, ?_⟩
  rw [ProjectionTable.codeRanges]
  refine Eq.trans (congrArg (fun ranges : List Projection => ranges.mergeSort _) ?_)
    (mergeSort_last_first (by decide) (by decide))
  rw [ProjectionTable.ofSource, Program.assemble_plain (by decide)]
  decide

theorem stretches_placed_imports :
    (∃ program, lateImports.generate {} = .ok program ∧ program.table.Ordered ∧
      (stretches program.code.utf8ByteSize 0 (program.table.codeRanges ⟨"a.tt"⟩)).countP
        (·.holds program.code 21) = 2 ∧
      ¬program.table.CodeInOrder ⟨"a.tt"⟩ ∧
      ¬Span.Apart program.code (stretches program.code.utf8ByteSize 0 (program.table.codeRanges ⟨"a.tt"⟩))) ∧
    ∃ program, hosted.generate {} = .ok program ∧ program.table.CodeInOrder ⟨"a"⟩ ∧
      Span.Apart program.code (stretches program.code.utf8ByteSize 0 (program.table.codeRanges ⟨"a"⟩)) := by
  constructor
  · obtain ⟨program, generated, size, ranges⟩ := lateImports_generate
    have ordered := table_ordered generated
    obtain ⟨-, -, -, law, whole⟩ := ProjectionTable.stretches_placed program.table ordered program.code ⟨"a.tt"⟩ ""
    obtain ⟨aligned, apart_iff⟩ := whole lateImports {} program generated rfl rfl
    have placed := (law aligned).1 21 (by rw [size]; decide)
    have crossed : ¬program.table.CodeInOrder ⟨"a.tt"⟩ := by
      rw [CodeInOrder, ranges]
      decide
    have turned : turns 21 0 (program.table.codeRanges ⟨"a.tt"⟩) = 1 := by
      rw [ranges]
      rfl
    have free : (program.table.codeRanges ⟨"a.tt"⟩).countP (·.generated.contains 21) = 0 := by
      rw [ranges]
      rfl
    refine ⟨program, generated, ordered, ?_, crossed, fun apart => crossed (apart_iff.mp apart)⟩
    omega
  · obtain ⟨program, generated, ranges⟩ := hosted_generate
    have inOrder : program.table.CodeInOrder ⟨"a"⟩ := by
      rw [CodeInOrder, ranges]
      decide
    obtain ⟨-, -, -, -, whole⟩ :=
      ProjectionTable.stretches_placed program.table (table_ordered generated) program.code ⟨"a"⟩ ""
    exact ⟨program, generated, inOrder, (whole hosted {} program generated rfl rfl).2.mpr inOrder⟩

/-- Between the imports one is back in front of the statement, and the program goes on from there once more. -/
theorem late_imports_placed_twice : ∃ program, lateImports.generate {} = .ok program ∧ program.table.Ordered ∧
    (program.injections ⟨"a.tt"⟩ (lateImports.textOf ⟨"a.tt"⟩)).map
      (fun injection => (injection.start, injection.stop)) = [(2, 6), (30, 31), (57, 58)] ∧
    ((program.injections ⟨"a.tt"⟩ (lateImports.textOf ⟨"a.tt"⟩)).map Injection.before).drop 1 =
      ["", codeBetween program.code 21 29] ∧ codeBetween program.code 21 29 ≠ "" ∧
    stretches program.code.utf8ByteSize 0 (program.table.codeRanges ⟨"a.tt"⟩) =
      [⟨0, 296⟩, ⟨300, 20⟩, ⟨21, 29⟩, ⟨30, 375⟩] ∧
    Span.holds ⟨0, 296⟩ program.code 21 = true ∧ Span.holds ⟨21, 29⟩ program.code 21 = true ∧
    ¬Span.Apart program.code (stretches program.code.utf8ByteSize 0 (program.table.codeRanges ⟨"a.tt"⟩)) := by
  obtain ⟨program, generated, size, ranges⟩ := lateImports_generate
  have spans : stretches program.code.utf8ByteSize 0 (program.table.codeRanges ⟨"a.tt"⟩) =
      [⟨0, 296⟩, ⟨300, 20⟩, ⟨21, 29⟩, ⟨30, 375⟩] := by
    rw [ranges, size]
    rfl
  have aligned : Aligned program.code (program.table.codeRanges ⟨"a.tt"⟩) := codeRanges_aligned generated
  have boundaries := stretches_boundaries isBoundary_zero aligned
  rw [spans] at boundaries
  have first : Span.holds ⟨0, 296⟩ program.code 21 = true :=
    have ends := boundaries ⟨0, 296⟩ (by decide)
    Span.holds_of_boundaries ends.1 ends.2 rfl
  have third : Span.holds ⟨21, 29⟩ program.code 21 = true :=
    have ends := boundaries ⟨21, 29⟩ (by decide)
    Span.holds_of_boundaries ends.1 ends.2 rfl
  refine ⟨program, generated, table_ordered generated, ?_, ?_, codeBetween_ne_empty third, spans, first, third, ?_⟩
  · rw [Program.injections, ProjectionTable.injections, ranges]
    simp only [injectionsFrom, List.map_cons, List.map_nil]
    decide
  · have none : codeBetween program.code 300 20 = "" := rfl
    rw [Program.injections, ProjectionTable.injections, ranges]
    simp only [injectionsFrom, List.map_cons, List.map_nil, List.drop_succ_cons, List.drop_zero, none]
  · intro apart
    rw [spans] at apart
    exact (List.pairwise_cons.mp apart).1 ⟨21, 29⟩ (by decide) 21 ⟨first, third⟩

end Bundle

end TextTemplate
