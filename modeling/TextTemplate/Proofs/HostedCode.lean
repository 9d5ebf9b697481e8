import Mathlib.Data.List.Nodup
import TextTemplate.Proofs.TracedCode
import TextTemplate.Proofs.Utf16Slices

/-! What an editor makes of injections. It puts the generated text of each around the code that it finds
between the two offsets in the template, and joins the parts. When the code of the template was
generated in the order it stands in, the result is the program. -/

namespace TextTemplate
open Text

namespace Injection

def hosted? (text : String) (injection : Injection) : Option String :=
  (utf16Slice? text injection.start injection.stop).map fun code =>
    injection.before ++ code ++ injection.after

def rebuilt? (text : String) (injections : List Injection) : Option String :=
  (injections.mapM (hosted? text)).map String.join

private theorem rebuilt?_cons {text part others : String} {injection : Injection} {rest : List Injection}
    (hosted : injection.hosted? text = some part) (later : rebuilt? text rest = some others) :
    rebuilt? text (injection :: rest) = some (part ++ others) := by
  obtain ⟨parts, placed, rfl⟩ := Option.map_eq_some_iff.mp later
  rw [rebuilt?, List.mapM_cons, hosted, placed]
  exact congrArg some String.join_cons

end Injection

def Projection.Copies (entry : Projection) (text code : String) : Prop :=
  ∃ part, part ≠ [] ∧ entry.origin.span.Covers text.toList part ∧ entry.generated.Covers code.toList part

private theorem Projection.Copies.forward {entry : Projection} {text code : String} (copies : entry.Copies text code) :
    entry.generated.start < entry.generated.stop := by
  obtain ⟨part, nonempty, -, covers⟩ := copies
  have wide : 0 < width part := width_pos nonempty
  have stop := covers.stop_eq
  omega

namespace ProjectionTable

theorem codeBetween_eq {code : String} {placed gap rest : List Char} (split : code.toList = placed ++ (gap ++ rest)) :
    codeBetween code (width placed) (width placed + width gap) = .ofList gap := by
  rw [codeBetween, slice?_eq_some_iff.mpr ⟨placed, rest, split, rfl, rfl⟩]
  rfl

private theorem codeBetween_end {code : String} {placed rest : List Char} (split : code.toList = placed ++ rest) :
    codeBetween code (width placed) code.utf8ByteSize = .ofList rest := by
  rw [← width_toList, split, width_append]
  have whole : code.toList = placed ++ (rest ++ []) := by rw [split, List.append_nil]
  exact codeBetween_eq whole

/-- When the code before an offset has been placed, the injections of the ranges after it place the rest. -/
theorem rebuilt?_injectionsFrom {code text : String} {placed rest : List Char} (split : code.toList = placed ++ rest)
    {ranges : List Projection} (nonempty : ranges ≠ []) (copies : ∀ entry ∈ ranges, entry.Copies text code)
    (ahead : ∀ entry ∈ ranges, width placed ≤ entry.generated.start)
    (apart : ranges.Pairwise fun first second => first.generated.stop ≤ second.generated.start) :
    Injection.rebuilt? text (injectionsFrom code text (width placed) ranges) = some (.ofList rest) := by
  induction ranges generalizing placed rest with
  | nil => exact absurd rfl nonempty
  | cons entry others ih =>
    obtain ⟨part, -, origin, before, after, around, start, stop⟩ := copies entry List.mem_cons_self
    obtain ⟨gap, rfl, rfl⟩ : ∃ gap, before = placed ++ gap ∧ rest = gap ++ (part ++ after) := by
      have passed := ahead entry List.mem_cons_self
      rw [start] at passed
      exact prefix_of_width_le (split.symm.trans around) passed
    have front : codeBetween code (width placed) entry.generated.start = .ofList gap := by
      rw [start, width_append]
      exact codeBetween_eq split
    have behind : code.toList = (placed ++ gap ++ part) ++ after := by
      rw [split]
      simp only [List.append_assoc]
    have reached : entry.generated.stop = width (placed ++ gap ++ part) := by
      rw [stop, ← width_append]
    rw [injectionsFrom]
    cases others with
    | nil =>
      have hosted : Injection.hosted? text
          ⟨utf16Offset text entry.origin.span.start, utf16Offset text entry.origin.span.stop,
            codeBetween code (width placed) entry.generated.start,
            codeBetween code entry.generated.stop code.utf8ByteSize⟩ =
          some (.ofList (gap ++ (part ++ after))) := by
        rw [Injection.hosted?, utf16Slice?_of_covers origin, front, reached, codeBetween_end behind]
        simp only [Option.map_some, String.ofList_append, String.append_assoc]
      exact (Injection.rebuilt?_cons hosted rfl).trans (congrArg some String.append_empty)
    | cons next more =>
      have hosted : Injection.hosted? text
          ⟨utf16Offset text entry.origin.span.start, utf16Offset text entry.origin.span.stop,
            codeBetween code (width placed) entry.generated.start, ""⟩ =
          some (.ofList (gap ++ part)) := by
        rw [Injection.hosted?, utf16Slice?_of_covers origin, front]
        simp only [Option.map_some, String.ofList_append, String.append_empty]
      obtain ⟨close, apart⟩ := List.pairwise_cons.mp apart
      have later := ih behind (List.cons_ne_nil _ _)
        (fun other member => copies other (List.mem_cons_of_mem _ member))
        (fun other member => reached ▸ close other member) apart
      rw [← reached] at later
      rw [← List.append_assoc, String.ofList_append]
      exact Injection.rebuilt?_cons hosted later

theorem mem_codeRanges {table : ProjectionTable} {source : SourceId} {entry : Projection} :
    entry ∈ table.codeRanges source ↔
      entry ∈ table.entries ∧ entry.origin.source = source ∧ entry.origin.kind = .code := by
  rw [codeRanges, List.mem_mergeSort, List.mem_filter, ofSource, List.mem_filter, Array.mem_toList_iff,
    decide_eq_true_eq, decide_eq_true_eq, and_assoc]

private theorem idxOf_lt_of_sublist {ranges : List Projection} (distinct : ranges.Nodup) {first second : Projection}
    (listed : [first, second].Sublist ranges) : ranges.idxOf first < ranges.idxOf second := by
  have indices : ranges.Pairwise fun first second => ranges.idxOf first < ranges.idxOf second := by
    refine List.pairwise_iff_getElem.mpr fun index other bound limit before => ?_
    rwa [distinct.idxOf_getElem, distinct.idxOf_getElem]
  exact List.pairwise_iff_forall_sublist.mp indices listed

theorem startsBefore_trans (first second third : Projection)
    (lower : decide (first.origin.span.start ≤ second.origin.span.start) = true)
    (upper : decide (second.origin.span.start ≤ third.origin.span.start) = true) :
    decide (first.origin.span.start ≤ third.origin.span.start) = true := by
  rw [decide_eq_true_eq] at lower upper ⊢
  exact Nat.le_trans lower upper

theorem startsBefore_total (first second : Projection) :
    (decide (first.origin.span.start ≤ second.origin.span.start) ||
      decide (second.origin.span.start ≤ first.origin.span.start)) = true := by
  rw [Bool.or_eq_true, decide_eq_true_eq, decide_eq_true_eq]
  exact Nat.le_total _ _

private theorem codeRanges_sorted {table : ProjectionTable} {source : SourceId} :
    (table.codeRanges source).Pairwise fun first second =>
      first.origin.span.start ≤ second.origin.span.start :=
  (List.pairwise_mergeSort startsBefore_trans startsBefore_total _).imp of_decide_eq_true

/-- Sorting ranges by where they come from leaves them in the order of generation, if ranges that come
from further behind were generated later. Those with the same start are not exchanged. -/
theorem mergeSort_increasing {ranges : List Projection}
    (earlier : ranges.Pairwise fun first second => first.generated.start < second.generated.start)
    (inOrder : ∀ first ∈ ranges, ∀ second ∈ ranges,
      first.origin.span.start < second.origin.span.start → first.generated.start < second.generated.start) :
    (ranges.mergeSort fun first second => first.origin.span.start ≤ second.origin.span.start).Pairwise
      fun first second => first.generated.start < second.generated.start := by
  have distinct : (ranges.mergeSort fun first second =>
      first.origin.span.start ≤ second.origin.span.start).Nodup := by
    refine (List.mergeSort_perm _ _).nodup_iff.mpr (earlier.imp fun before same => ?_)
    rw [same] at before
    exact Nat.lt_irrefl _ before
  refine List.pairwise_iff_forall_sublist.mpr fun {first second} listed => ?_
  have sorted := List.pairwise_iff_forall_sublist.mp
    (List.pairwise_mergeSort startsBefore_trans startsBefore_total ranges) listed
  rw [decide_eq_true_eq] at sorted
  have here := List.mem_mergeSort.mp (listed.subset List.mem_cons_self)
  have there := List.mem_mergeSort.mp (listed.subset (List.mem_cons_of_mem _ List.mem_cons_self))
  rcases Nat.lt_or_eq_of_le sorted with before | level
  · exact inOrder first here second there before
  have pairs : ranges.Pairwise fun first second => [first, second].Sublist ranges :=
    List.pairwise_iff_forall_sublist.mpr fun pair => pair
  rcases pairwise_cases pairs here there with before | same | after
  · exact List.pairwise_iff_forall_sublist.mp earlier before
  · subst same
    exact absurd (idxOf_lt_of_sublist distinct listed) (Nat.lt_irrefl _)
  · have kept := List.pair_sublist_mergeSort startsBefore_trans startsBefore_total
      (decide_eq_true (Nat.le_of_eq level.symm)) after
    exact absurd (idxOf_lt_of_sublist distinct listed)
      (Nat.lt_asymm (idxOf_lt_of_sublist distinct kept))

/-- The code of a source that stands further behind was also generated further behind. -/
def CodeInOrder (table : ProjectionTable) (source : SourceId) : Prop :=
  ∀ first ∈ table.codeRanges source, ∀ second ∈ table.codeRanges source,
    first.origin.span.start < second.origin.span.start → first.generated.start < second.generated.start

theorem codeInOrder_iff {table : ProjectionTable} {source : SourceId} (ordered : table.Ordered)
    (forward : ∀ entry ∈ table.codeRanges source, entry.generated.start < entry.generated.stop) :
    table.CodeInOrder source ↔ (table.codeRanges source).Pairwise
      fun first second => first.generated.start < second.generated.start := by
  constructor
  · intro inOrder
    have earlier : ((table.ofSource source).filter fun entry => entry.origin.kind = .code).Pairwise
        fun first second => first.generated.start < second.generated.start := by
      refine (ordered.apart.sublist (List.filter_sublist.trans List.filter_sublist)).imp_of_mem
        fun here _ apart => ?_
      exact Nat.lt_of_lt_of_le (forward _ (List.mem_mergeSort.mpr here)) apart
    exact mergeSort_increasing earlier fun first here second there =>
      inOrder first (List.mem_mergeSort.mpr here) second (List.mem_mergeSort.mpr there)
  · intro increasing first here second there before
    rcases pairwise_cases (increasing.and codeRanges_sorted) here there with
      ⟨earlier, -⟩ | same | ⟨-, sorted⟩
    · exact earlier
    · rw [same] at before
      exact absurd before (Nat.lt_irrefl _)
    · exact absurd before (Nat.not_lt.mpr sorted)

end ProjectionTable

namespace Bundle
variable {bundle : Bundle} {options : Options} {program : Program} {source : SourceId}

private theorem codeRanges_copies (built : bundle.IsBuilt) (generated : bundle.generate options = .ok program) :
    ∀ entry ∈ program.table.codeRanges source, entry.Copies (bundle.textOf source) program.code := by
  intro entry member
  obtain ⟨listed, rfl, verbatim⟩ := ProjectionTable.mem_codeRanges.mp member
  obtain ⟨template, original, found, yields, covers⟩ := entry_yields built generated listed
  rw [verbatim] at covers
  have text : bundle.textOf entry.origin.source = template.text := by
    rw [textOf, found]
    rfl
  exact ⟨original, yields.nonempty, text ▸ yields.covers, covers⟩

/-- When all templates were built and the code of a source was generated in the order it stands in, an
editor that places it by the injections of the source has exactly the program. -/
theorem injections_rebuild (built : bundle.IsBuilt)
    (generated : bundle.generate options = .ok program) (nonempty : program.table.codeRanges source ≠ [])
    (inOrder : program.table.CodeInOrder source) :
    Injection.rebuilt? (bundle.textOf source) (program.injections source (bundle.textOf source)) =
      some program.code := by
  have ordered := table_ordered generated
  have copies : ∀ entry ∈ program.table.codeRanges source, entry.Copies (bundle.textOf source) program.code :=
    codeRanges_copies built generated
  have increasing := (ProjectionTable.codeInOrder_iff ordered fun entry member =>
    (copies entry member).forward).mp inOrder
  have apart : (program.table.codeRanges source).Pairwise
      fun first second => first.generated.stop ≤ second.generated.start := by
    refine increasing.imp_of_mem fun here there before => ?_
    exact ordered.stop_le_start (ProjectionTable.mem_codeRanges.mp here).1
      (ProjectionTable.mem_codeRanges.mp there).1 before
  have whole : program.code.toList = [] ++ program.code.toList := rfl
  have rebuilt := ProjectionTable.rebuilt?_injectionsFrom whole nonempty copies
    (fun _ _ => Nat.zero_le _) apart
  rwa [String.ofList_toList] at rebuilt

def hostedRoot : Template := .build ⟨"a"⟩ [.text "😀", .code .expression "n", .code .expression "m"]

def hosted : Bundle := ⟨⟨"a"⟩, [hostedRoot], .empty⟩

private theorem hosted_built : hosted.IsBuilt := by
  intro template member
  cases List.mem_singleton.mp member
  exact ⟨_, rfl⟩

theorem hosted_generate : ∃ program, hosted.generate {} = .ok program ∧
    program.table.codeRanges ⟨"a"⟩ =
      [⟨⟨349, 350⟩, ⟨⟨"a"⟩, ⟨7, 8⟩, .code⟩, 8⟩, ⟨⟨405, 406⟩, ⟨⟨"a"⟩, ⟨13, 14⟩, .code⟩, 9⟩] := by
  refine ⟨_, generate_of_root (show hosted.find? hosted.root = some hostedRoot by decide)
    (by decide) {}, ?_⟩
  have nodes : hostedRoot.nodes = [.text ⟨"😀", ⟨0, 4⟩⟩, .code ⟨.expression, "n", ⟨7, 8⟩, ⟨4, 10⟩⟩,
      .code ⟨.expression, "m", ⟨13, 14⟩, ⟨10, 16⟩⟩] := by
    decide
  rw [Session.gathered, Session.encountersOf, nodes, Session.encounters, Session.encounters, Session.encounters,
    Session.encounters, ProjectionTable.codeRanges, ProjectionTable.ofSource,
    Program.assemble_plain (by decide), List.mergeSort_of_pairwise]
  · decide
  · decide

theorem injections_rebuild_hosted : ∃ program, hosted.generate {} = .ok program ∧
    ((program.injections ⟨"a"⟩ (hosted.textOf ⟨"a"⟩)).map fun injection => (injection.start, injection.stop)) =
      [(5, 6), (11, 12)] ∧
    Injection.rebuilt? (hosted.textOf ⟨"a"⟩) (program.injections ⟨"a"⟩ (hosted.textOf ⟨"a"⟩)) =
      some program.code := by
  obtain ⟨program, generated, ranges⟩ := hosted_generate
  refine ⟨program, generated, ?_, injections_rebuild hosted_built generated ?_ ?_⟩
  · rw [Program.injections, ProjectionTable.injections, ranges]
    simp only [ProjectionTable.injectionsFrom, List.map_cons, List.map_nil]
    decide
  · rw [ranges]
    exact List.cons_ne_nil _ _
  · rw [ProjectionTable.CodeInOrder, ranges]
    decide

end Bundle

end TextTemplate
