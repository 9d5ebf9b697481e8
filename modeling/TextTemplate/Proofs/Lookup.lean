import TextTemplate.Projection.Table

/-! Looking up entries of a table whose generated ranges follow each other. Halving finds the entry
around a generated offset, and the first entry around an offset of a source is also the first in
the code. -/

namespace TextTemplate

/-- While `point` is known to lie in or right behind the indices that are left, halving ends at
the last index before it. -/
theorem halve_spec {passes : Nat → Bool} {point : Nat} (base size : Nat) (nonempty : 0 < size)
    (split : ∀ index < base + size, passes index = true ↔ index < point)
    (low : base = 0 ∨ base < point) (high : point ≤ base + size) :
    let last := halve passes base size
    (last = 0 ∨ last < point) ∧ point ≤ last + 1 ∧ last < base + size := by
  fun_induction halve passes base size with
  | case1 base size single => exact ⟨low, by omega, by omega⟩
  | case2 base size more ih =>
    have middle := split (base + size / 2) (by omega)
    by_cases passed : passes (base + size / 2) = true
    · have below := middle.mp passed
      rw [dif_pos passed] at ih
      rw [if_pos passed]
      obtain ⟨first, second, third⟩ := ih (by omega) (fun index inside => split index (by omega))
        (.inr below) (by omega)
      exact ⟨first, second, by omega⟩
    · have above : ¬base + size / 2 < point := fun below => passed (middle.mpr below)
      rw [dif_neg passed] at ih
      rw [if_neg passed]
      obtain ⟨first, second, third⟩ := ih (by omega) (fun index inside => split index (by omega))
        low (by omega)
      exact ⟨first, second, by omega⟩

private theorem partitionPoint_eq {passes : Nat → Bool} {point size : Nat}
    (split : ∀ index < size, passes index = true ↔ index < point) (high : point ≤ size) :
    partitionPoint passes size = point := by
  unfold partitionPoint
  split
  · omega
  · have whole : ∀ index < 0 + size, passes index = true ↔ index < point := by simpa using split
    obtain ⟨first, second, third⟩ := halve_spec 0 size (by omega) whole (.inl rfl) (by omega)
    have last := split (halve passes 0 size) (by omega)
    show (if passes (halve passes 0 size) then halve passes 0 size + 1 else halve passes 0 size) = point
    by_cases passed : passes (halve passes 0 size) = true
    · have below := last.mp passed
      rw [if_pos passed]
      omega
    · have above : ¬halve passes 0 size < point := fun below => passed (last.mpr below)
      rw [if_neg passed]
      omega

theorem pairwise_cases {α : Type} {relation : α → α → Prop} {list : List α} (pairwise : list.Pairwise relation)
    {first second : α} (here : first ∈ list) (there : second ∈ list) :
    relation first second ∨ first = second ∨ relation second first := by
  obtain ⟨index, bound, rfl⟩ := List.mem_iff_getElem.mp here
  obtain ⟨other, limit, rfl⟩ := List.mem_iff_getElem.mp there
  have ordered := List.pairwise_iff_getElem.mp pairwise
  rcases Nat.lt_trichotomy index other with before | same | after
  · exact .inl (ordered index other bound limit before)
  · subst same
    exact .inr (.inl rfl)
  · exact .inr (.inr (ordered other index limit bound after))

namespace ProjectionTable

/-- Generated ranges are in order and do not overlap. -/
structure Ordered (table : ProjectionTable) : Prop where
  forward : ∀ entry ∈ table.entries.toList, entry.generated.start ≤ entry.generated.stop
  apart : table.entries.toList.Pairwise fun first second => first.generated.stop ≤ second.generated.start

variable {table : ProjectionTable} {entry : Projection}

theorem Ordered.stop_le_start (ordered : table.Ordered) {first second : Projection}
    (here : first ∈ table.entries) (there : second ∈ table.entries)
    (before : first.generated.start < second.generated.start) :
    first.generated.stop ≤ second.generated.start := by
  rw [← Array.mem_toList_iff] at here there
  rcases pairwise_cases ordered.apart here there with apart | same | apart
  · exact apart
  · rw [same] at before
    exact absurd before (Nat.lt_irrefl _)
  · have opens := ordered.forward first here
    have closes := ordered.forward second there
    omega

theorem findGenerated?_eq_some_iff (ordered : table.Ordered) {offset : Nat} :
    table.findGenerated? offset = some entry ↔
      entry ∈ table.entries ∧ entry.generated.contains offset = true := by
  constructor
  · intro found
    obtain ⟨located, within⟩ := Option.filter_eq_some_iff.mp found
    exact ⟨Array.mem_of_getElem? located, within⟩
  · rintro ⟨member, within⟩
    obtain ⟨position, small, rfl⟩ := Array.mem_iff_getElem.mp member
    have inside := within
    simp only [Span.contains, Bool.and_eq_true, decide_eq_true_eq] at inside
    have apart := List.pairwise_iff_getElem.mp ordered.apart
    simp only [Array.length_toList, Array.getElem_toList] at apart
    have split : ∀ index < table.size, table.endsBefore offset index = true ↔ index < position := by
      intro index bound
      have bound : index < table.entries.size := bound
      have forward := ordered.forward table.entries[index] (Array.getElem_mem_toList bound)
      simp only [endsBefore, Array.getElem?_eq_getElem bound, decide_eq_true_eq]
      rcases Nat.lt_trichotomy index position with before | rfl | after
      · have order := apart index position bound small before
        omega
      · omega
      · have order := apart position index small bound after
        omega
    rw [findGenerated?, partitionPoint_eq split (Nat.le_of_lt small), Array.getElem?_eq_getElem small,
      Option.filter_some, within]
    rfl

/-- Every other entry around the offset was generated behind the one found. -/
theorem findOrigin?_first (ordered : table.Ordered) {source : SourceId} {offset : Nat}
    (found : table.findOrigin? source offset = some entry) :
    entry ∈ table.entries ∧ entry.origin.source = source ∧ entry.origin.span.contains offset = true ∧
      ∀ other ∈ table.entries, other.origin.source = source → other.origin.span.contains offset = true →
        other = entry ∨ entry.generated.stop ≤ other.generated.start := by
  obtain ⟨passed, before, after, split, skipped⟩ := List.find?_eq_some_iff_append.mp found
  simp only [Bool.and_eq_true, decide_eq_true_eq] at passed
  refine ⟨?_, passed.1, passed.2, ?_⟩
  · rw [← Array.mem_toList_iff, split]
    exact List.mem_append_right _ List.mem_cons_self
  · intro other member same within
    rw [← Array.mem_toList_iff, split] at member
    rcases List.mem_append.mp member with early | member
    · have refused := skipped other early
      simp [same, within] at refused
    rcases List.mem_cons.mp member with rfl | late
    · exact .inl rfl
    · have apart := ordered.apart
      rw [split] at apart
      have behind := (List.pairwise_append.mp apart).2.1
      exact .inr ((List.pairwise_cons.mp behind).1 other late)

theorem exists_findOrigin? {source : SourceId} {offset : Nat} (member : entry ∈ table.entries)
    (same : entry.origin.source = source) (within : entry.origin.span.contains offset = true) :
    ∃ first, table.findOrigin? source offset = some first := by
  apply Option.isSome_iff_exists.mp
  apply List.find?_isSome.mpr
  exact ⟨entry, Array.mem_toList_iff.mpr member, by simp [same, within]⟩

end ProjectionTable

end TextTemplate
