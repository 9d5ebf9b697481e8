import TextTemplate.SourcePath

/-! The normal form of a path: no segment without effect, and `..` only where there is nothing left to
climb out of. Every resolved path is normal. Resolving the name of a path in the path itself normalises
it, so a path is found under its own name exactly if it is normal. -/

namespace TextTemplate.SourcePath

def IsSegment (segment : List Char) : Prop :=
  '/' ∉ segment ∧ '\\' ∉ segment

structure Normal (absolute : Bool) (path : List (List Char)) : Prop where
  segments : ∀ segment ∈ path, IsSegment segment ∧ segment ≠ [] ∧ segment ≠ ['.']
  clamped : absolute = true → ['.', '.'] ∉ path
  leading : path.Pairwise fun first second => second = ['.', '.'] → first = ['.', '.']

theorem of_mem_splitOn {separator : Char} {path segment : List Char} (member : segment ∈ path.splitOn separator) :
    separator ∉ segment ∧ segment ⊆ path := by
  induction path generalizing segment with
  | nil =>
    cases List.mem_singleton.mp (List.splitOn_nil separator ▸ member)
    exact ⟨List.not_mem_nil, List.nil_subset _⟩
  | cons c rest ih =>
    have below {other : List Char} (later : other ∈ rest.splitOn separator) :
        separator ∉ other ∧ other ⊆ c :: rest :=
      ⟨(ih later).1, fun _ inside => List.mem_cons_of_mem _ ((ih later).2 inside)⟩
    rw [List.splitOn_cons_eq_if_modifyHead] at member
    split at member
    next =>
      rcases List.mem_cons.mp member with rfl | later
      · exact ⟨List.not_mem_nil, List.nil_subset _⟩
      · exact below later
    next other =>
      obtain ⟨first, more, split⟩ := List.exists_cons_of_ne_nil (List.splitOn_ne_nil separator rest)
      rw [split, List.modifyHead_cons] at member
      rcases List.mem_cons.mp member with rfl | later
      · obtain ⟨clean, part⟩ := ih (split ▸ List.mem_cons_self)
        refine ⟨fun inside => ?_, List.cons_subset_cons c part⟩
        rcases List.mem_cons.mp inside with rfl | within
        · exact other (beq_self_eq_true _)
        · exact clean within
      · exact below (split ▸ List.mem_cons_of_mem _ later)

theorem isSegment_of_mem {path segment : List Char} (member : segment ∈ segments path) : IsSegment segment := by
  obtain ⟨clean, part⟩ := of_mem_splitOn member
  refine ⟨clean, fun inside => ?_⟩
  obtain ⟨c, -, same⟩ := List.mem_map.mp (part inside)
  split at same
  next => cases same
  next other => exact other same

theorem segments_ne_nil (path : List Char) : segments path ≠ [] :=
  List.splitOn_ne_nil _ _

theorem segments_eq_splitOn {path : List Char} (clean : '\\' ∉ path) : segments path = path.splitOn '/' := by
  have same : path.map (fun c => if c = '\\' then '/' else c) = path := by
    refine (List.map_congr_left fun c inside => if_neg ?_).trans (List.map_id path)
    rintro rfl
    exact clean inside
  rw [segments, same]

theorem segments_of_isSegment {segment : List Char} (clean : IsSegment segment) : segments segment = [segment] := by
  rw [segments_eq_splitOn clean.2, List.splitOn_eq_singleton clean.1]

private theorem not_mem_intercalate {path : List (List Char)} (clean : ∀ segment ∈ path, IsSegment segment) :
    '\\' ∉ ['/'].intercalate path := by
  intro inside
  induction path with
  | nil => cases inside
  | cons first rest ih =>
    cases rest with
    | nil =>
      rw [List.intercalate_singleton] at inside
      exact (clean first List.mem_cons_self).2 inside
    | cons second more =>
      rw [List.intercalate_cons_cons, List.mem_append, List.mem_append, List.mem_singleton] at inside
      rcases inside with (within | slash) | later
      · exact (clean first List.mem_cons_self).2 within
      · cases slash
      · exact ih (fun segment member => clean segment (List.mem_cons_of_mem _ member)) later

theorem not_mem_render {path : List (List Char)} (clean : ∀ segment ∈ path, IsSegment segment) (absolute : Bool) :
    '\\' ∉ render absolute path := by
  have plain := not_mem_intercalate clean
  cases absolute with
  | false => exact plain
  | true =>
    intro inside
    rcases List.mem_cons.mp inside with slash | later
    · cases slash
    · exact plain later

def root (absolute : Bool) : List (List Char) :=
  if absolute = true then [[]] else []

/-- A rendered path is read back, an empty one as a single empty segment. -/
theorem segments_render {path : List (List Char)} (clean : ∀ segment ∈ path, IsSegment segment) (absolute : Bool) :
    segments (render absolute path) =
      root absolute ++ if path = [] then [[]] else path := by
  have relative : (['/'].intercalate path).splitOn '/' = if path = [] then [[]] else path := by
    split
    next empty => rw [empty]; rfl
    next nonempty => exact List.splitOn_intercalate '/' (fun segment member => (clean segment member).1) nonempty
  rw [segments_eq_splitOn (not_mem_render clean absolute)]
  cases absolute with
  | false => exact relative
  | true =>
    have cut := List.splitOn_append_cons_self [] (['/'].intercalate path) (a := '/')
    rw [relative] at cut
    exact cut

section
variable {absolute : Bool} {visited : List (List Char)} {segment : List Char}

theorem Normal.clean {path : List (List Char)} (normal : Normal absolute path) :
    ∀ segment ∈ path, IsSegment segment :=
  fun segment member => (normal.segments segment member).1

private theorem Normal.concat (normal : Normal absolute visited.reverse) (clean : IsSegment segment)
    (nonempty : segment ≠ []) (moving : segment ≠ ['.']) (below : absolute = true → segment ≠ ['.', '.'])
    (climbing : segment = ['.', '.'] → ∀ first ∈ visited, first = ['.', '.']) :
    Normal absolute (segment :: visited).reverse where
  segments := by
    intro other member
    rcases List.mem_cons.mp (List.mem_reverse.mp member) with rfl | before
    · exact ⟨clean, nonempty, moving⟩
    · exact normal.segments other (List.mem_reverse.mpr before)
  clamped top member := by
    rcases List.mem_cons.mp (List.mem_reverse.mp member) with same | before
    · exact below top same.symm
    · exact normal.clamped top (List.mem_reverse.mpr before)
  leading := by
    rw [List.reverse_cons, List.pairwise_append]
    refine ⟨normal.leading, List.pairwise_singleton _ _, fun first before second last climb => ?_⟩
    rw [List.mem_singleton.mp last] at climb
    exact climbing climb first (List.mem_reverse.mp before)

theorem Normal.sublist {path part : List (List Char)} (normal : Normal absolute path) (sub : part.Sublist path) :
    Normal absolute part where
  segments segment member := normal.segments segment (sub.subset member)
  clamped top member := normal.clamped top (sub.subset member)
  leading := normal.leading.sublist sub

private theorem Normal.init {last : List Char} (normal : Normal absolute (last :: visited).reverse) :
    Normal absolute visited.reverse := by
  rw [List.reverse_cons] at normal
  exact normal.sublist (List.sublist_append_left _ _)

theorem advance_normal (normal : Normal absolute visited.reverse) (clean : IsSegment segment) :
    Normal absolute (advance absolute visited segment).reverse := by
  unfold advance
  split
  · exact normal
  next moves =>
    obtain ⟨nonempty, moving⟩ := not_or.mp moves
    split
    next climbs =>
      split
      next last rest =>
        split
        · exact normal.init
        next climbed =>
          split
          · exact normal
          next relative =>
            refine normal.concat clean nonempty moving (fun top => absurd top relative) fun _ first member => ?_
            rcases List.mem_cons.mp member with rfl | before
            · exact Classical.not_not.mp climbed
            · have leading := normal.leading
              rw [List.reverse_cons, List.pairwise_append] at leading
              exact leading.2.2 first (List.mem_reverse.mpr before) last List.mem_cons_self
                (Classical.not_not.mp climbed)
      next =>
        split
        · exact normal
        next relative =>
          exact normal.concat clean nonempty moving (fun top => absurd top relative)
            fun _ => List.forall_mem_nil _
    next descends =>
      exact normal.concat clean nonempty moving (fun _ => descends) fun climb => absurd climb descends

/-- Behind a normal path, a segment that keeps it normal is a step down. -/
theorem advance_eq {path : List (List Char)} (normal : Normal absolute (visited.reverse ++ segment :: path)) :
    advance absolute visited segment = segment :: visited := by
  have here : segment ∈ visited.reverse ++ segment :: path := List.mem_append_right _ List.mem_cons_self
  obtain ⟨-, nonempty, moving⟩ := normal.segments segment here
  unfold advance
  rw [if_neg (not_or.mpr ⟨nonempty, moving⟩)]
  split
  next climbs =>
    have relative : ¬absolute = true := fun top => normal.clamped top (climbs ▸ here)
    split
    next last rest =>
      have climbed := (List.pairwise_append.mp normal.leading).2.2 last
        (List.mem_reverse.mpr List.mem_cons_self) segment List.mem_cons_self climbs
      rw [if_neg (not_not_intro climbed), if_neg relative]
    next =>
      rw [if_neg relative]
  next => rfl

private theorem foldl_advance {path : List (List Char)} (normal : Normal absolute (visited.reverse ++ path)) :
    path.foldl (advance absolute) visited = path.reverse ++ visited := by
  induction path generalizing visited with
  | nil => rfl
  | cons segment rest ih =>
    rw [List.foldl_cons, advance_eq normal, ih, List.reverse_cons, List.append_assoc]
    · rfl
    · rwa [List.reverse_cons, List.append_assoc]

private theorem foldl_normal {path : List (List Char)} (normal : Normal absolute visited.reverse)
    (clean : ∀ segment ∈ path, IsSegment segment) :
    Normal absolute (path.foldl (advance absolute) visited).reverse := by
  induction path generalizing visited with
  | nil => exact normal
  | cons segment rest ih =>
    exact ih (advance_normal normal (clean segment List.mem_cons_self))
      fun other member => clean other (List.mem_cons_of_mem _ member)

end

theorem normal_nil (absolute : Bool) : Normal absolute [] :=
  ⟨List.forall_mem_nil _, fun _ => List.not_mem_nil, .nil⟩

theorem normalize_normal {path : List (List Char)} (clean : ∀ segment ∈ path, IsSegment segment) :
    Normal (isAbsolute path) (normalize path) :=
  foldl_normal (normal_nil _) clean

theorem isAbsolute_render {absolute : Bool} {path : List (List Char)} (normal : Normal absolute path) :
    isAbsolute (segments (render absolute path)) = absolute := by
  rw [segments_render normal.clean]
  cases path with
  | nil => cases absolute <;> rfl
  | cons first rest =>
    cases absolute with
    | true => rfl
    | false =>
      cases first with
      | nil => exact absurd rfl (normal.segments [] List.mem_cons_self).2.1
      | cons c more => rfl

theorem foldl_advance_root {absolute : Bool} {path : List (List Char)} (normal : Normal absolute path) :
    (root absolute ++ path).foldl (advance absolute) [] = path.reverse := by
  have rooted : (root absolute).foldl (advance absolute) [] = [] := by
    cases absolute with
    | false => rfl
    | true => rfl
  have walked : path.foldl (advance absolute) [] = path.reverse ++ [] := foldl_advance normal
  rw [List.foldl_append, rooted, walked, List.append_nil]

private theorem normalize_render {absolute : Bool} {path : List (List Char)} (normal : Normal absolute path) :
    normalize (segments (render absolute path)) = path := by
  rw [normalize, isAbsolute_render normal, segments_render normal.clean]
  split
  next empty =>
    cases empty
    cases absolute with
    | false => rfl
    | true => rfl
  next => rw [foldl_advance_root normal, List.reverse_reverse]

def normalForm (path : String) : String :=
  String.ofList (render (isAbsolute (segments path.toList)) (normalize (segments path.toList)))

def IsNormal (path : String) : Prop :=
  ∃ absolute parts, Normal absolute parts ∧ path.toList = render absolute parts

theorem normalForm_eq_iff {path : String} : normalForm path = path ↔ IsNormal path := by
  constructor
  · intro same
    have clean : ∀ segment ∈ segments path.toList, IsSegment segment := fun _ => isSegment_of_mem
    exact ⟨_, _, normalize_normal clean, (congrArg String.toList same.symm).trans String.toList_ofList⟩
  · rintro ⟨absolute, parts, normal, spelled⟩
    rw [normalForm, spelled, isAbsolute_render normal, normalize_render normal, ← spelled, String.ofList_toList]

theorem resolve_of_joined {origin file : String} {path : List (List Char)}
    (same : joined origin.toList file.toList = path) :
    resolve origin file = String.ofList (render (isAbsolute path) (normalize path)) := by
  rw [resolve, same]

theorem isSegment_joined {origin file segment : List Char} (member : segment ∈ joined origin file) :
    IsSegment segment := by
  unfold joined at member
  split at member
  · exact isSegment_of_mem member
  · rcases List.mem_append.mp member with before | own
    · exact isSegment_of_mem (List.dropLast_subset _ before)
    · exact isSegment_of_mem own

theorem resolve_isNormal (origin file : String) : IsNormal (resolve origin file) :=
  ⟨_, _, normalize_normal fun _ => isSegment_joined, String.toList_ofList⟩

theorem isAbsolute_singleton (segment : List Char) : isAbsolute [segment] = false := by
  cases segment with
  | nil => rfl
  | cons c rest => rfl

def name (path : String) : String :=
  String.ofList ((segments path.toList).getLast (segments_ne_nil _))

/-- The name of a path, seen from the path, leads to its normal form. -/
theorem resolve_name (path : String) : resolve path (name path) = normalForm path := by
  have own := List.getLast_mem (segments_ne_nil path.toList)
  have single := segments_of_isSegment (isSegment_of_mem own)
  have same : joined path.toList (name path).toList = segments path.toList := by
    rw [joined, name, String.toList_ofList, single, isAbsolute_singleton, if_neg Bool.false_ne_true,
      List.dropLast_concat_getLast]
  rw [resolve_of_joined same, normalForm]

end TextTemplate.SourcePath
