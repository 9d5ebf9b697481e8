import TextTemplate.Proofs.NormalPaths

/-! Where paths lead. A place is a chain of directories, and following a path moves through it segment
by segment. The path that an include resolves to leads from every place to where the include leads when
it is followed from the directory of its template. It is the only normal path that does, and includes
compose: what is written in the included template may as well be written in the including one. -/

namespace TextTemplate.SourcePath

/-- The name of a file or a directory, which a path can descend to. -/
structure IsName (name : List Char) : Prop where
  segment : IsSegment name
  nonempty : name ≠ []
  moving : name ≠ ['.']
  descending : name ≠ ['.', '.']

def IsPlace (place : List (List Char)) : Prop :=
  ∀ name ∈ place, IsName name

def step (place : List (List Char)) (segment : List Char) : List (List Char) :=
  if segment = [] ∨ segment = ['.'] then
    place
  else if segment = ['.', '.'] then
    place.tail
  else
    segment :: place

def isRooted : List Char → Bool
  | '/' :: _ => true
  | _ => false

/-- Where a path starts when it is followed from a place. -/
def departure (absolute : Bool) (place : List (List Char)) : List (List Char) :=
  if absolute = true then [] else place

def follow (place : List (List Char)) (path : List Char) : List (List Char) :=
  (path.splitOn '/').foldl step (departure (isRooted path) place)

def slashed (path : List Char) : List Char :=
  path.map fun c => if c = '\\' then '/' else c

def directory? : List Char → Option (List Char)
  | [] => none
  | c :: rest =>
    match directory? rest with
    | some directory => some (c :: directory)
    | none => if c = '/' then some [] else none

/-- The path that is followed when `file` is included by `origin`. -/
def joinedPath (origin file : List Char) : List Char :=
  if isRooted (slashed file) = true then
    slashed file
  else
    match directory? (slashed origin) with
    | some directory => directory ++ '/' :: slashed file
    | none => slashed file

section
variable {place visited : List (List Char)} {name segment : List Char} {absolute : Bool}

private theorem step_nil : step place [] = place :=
  if_pos (.inl rfl)

theorem step_up : step place ['.', '.'] = place.tail := by
  unfold step
  rw [if_neg (by decide), if_pos rfl]

theorem step_name (nonempty : name ≠ []) (moving : name ≠ ['.']) (descending : name ≠ ['.', '.']) :
    step place name = name :: place := by
  unfold step
  rw [if_neg (not_or.mpr ⟨nonempty, moving⟩), if_neg descending]

private theorem foldl_step_names {names : List (List Char)} (named : ∀ name ∈ names, IsName name) :
    names.foldl step place = names.reverse ++ place := by
  induction names generalizing place with
  | nil => rfl
  | cons name rest ih =>
    obtain ⟨-, nonempty, moving, descending⟩ := named name List.mem_cons_self
    rw [List.foldl_cons, step_name nonempty moving descending,
      ih fun other member => named other (List.mem_cons_of_mem _ member), List.reverse_cons, List.append_assoc]
    rfl

private theorem foldl_step_climbs (climbs : Nat) :
    (List.replicate climbs ['.', '.']).foldl step place = place.drop climbs := by
  induction climbs generalizing place with
  | zero => rfl
  | succ climbs ih => rw [List.replicate_succ, List.foldl_cons, step_up, ih, List.drop_tail]

private theorem foldl_step_advance (normal : Normal absolute visited.reverse) (top : absolute = true → place = []) :
    (advance absolute visited segment).reverse.foldl step place =
      step (visited.reverse.foldl step place) segment := by
  have descends : (segment :: visited).reverse.foldl step place =
      step (visited.reverse.foldl step place) segment := by
    rw [List.reverse_cons, List.foldl_append]
    rfl
  unfold advance
  split
  next idle => exact (if_pos idle).symm
  next =>
    split
    next climbs =>
      subst climbs
      split
      next last rest =>
        have here : last ∈ (last :: rest).reverse := List.mem_reverse.mpr List.mem_cons_self
        obtain ⟨-, nonempty, moving⟩ := normal.segments last here
        split
        next descended =>
          rw [step_up, List.reverse_cons, List.foldl_append, List.foldl_cons, List.foldl_nil,
            step_name nonempty moving descended, List.tail_cons]
        next climbed =>
          have relative : ¬absolute = true := fun top =>
            normal.clamped top (Classical.not_not.mp climbed ▸ here)
          rw [if_neg relative]
          exact descends
      next =>
        split
        next rooted =>
          rw [top rooted]
          rfl
        next => exact descends
    next => exact descends

private theorem foldl_step_walk {path : List (List Char)} (normal : Normal absolute visited.reverse)
    (clean : ∀ segment ∈ path, IsSegment segment) (top : absolute = true → place = []) :
    (path.foldl (advance absolute) visited).reverse.foldl step place =
      path.foldl step (visited.reverse.foldl step place) := by
  induction path generalizing visited with
  | nil => rfl
  | cons segment rest ih =>
    have here : IsSegment segment := clean segment List.mem_cons_self
    rw [List.foldl_cons, List.foldl_cons,
      ih (advance_normal normal here) fun other member => clean other (List.mem_cons_of_mem _ member),
      foldl_step_advance normal top]

end

private theorem foldl_step_normalize {path : List (List Char)} (clean : ∀ segment ∈ path, IsSegment segment)
    (place : List (List Char)) :
    (normalize path).foldl step (departure (isAbsolute path) place) =
      path.foldl step (departure (isAbsolute path) place) := by
  have start : Normal (isAbsolute path) ([] : List (List Char)).reverse := normal_nil _
  exact foldl_step_walk start clean fun top => if_pos top

/-- A normal path climbs, unless it is absolute, and then descends. -/
theorem Normal.exists_climbs {absolute : Bool} {path : List (List Char)} (normal : Normal absolute path) :
    ∃ climbs names, path = List.replicate climbs ['.', '.'] ++ names ∧ (absolute = true → climbs = 0) ∧
      ∀ name ∈ names, IsName name := by
  obtain ⟨segments, clamped, leading⟩ := normal
  induction path with
  | nil => exact ⟨0, [], rfl, fun _ => rfl, List.forall_mem_nil _⟩
  | cons first rest ih =>
    obtain ⟨before, leading⟩ := List.pairwise_cons.mp leading
    by_cases climbs : first = ['.', '.']
    · obtain ⟨climbs', names, spelled, -, named⟩ :=
        ih (fun segment member => segments segment (List.mem_cons_of_mem _ member))
          (fun top member => clamped top (List.mem_cons_of_mem _ member)) leading
      refine ⟨climbs' + 1, names, ?_, fun top => absurd (climbs ▸ List.mem_cons_self) (clamped top), named⟩
      rw [climbs, spelled, List.replicate_succ, List.cons_append]
    · refine ⟨0, first :: rest, rfl, fun _ => rfl, fun name member => ?_⟩
      obtain ⟨clean, nonempty, moving⟩ := segments name member
      refine ⟨clean, nonempty, moving, ?_⟩
      rintro rfl
      rcases List.mem_cons.mp member with same | later
      · exact climbs same.symm
      · exact climbs (before _ later rfl)

section
variable {path directory : List Char}

theorem directory?_eq_none (missing : directory? path = none) : '/' ∉ path := by
  induction path with
  | nil => exact List.not_mem_nil
  | cons c rest ih =>
    unfold directory? at missing
    split at missing
    next => cases missing
    next later =>
      split at missing
      next => cases missing
      next other =>
        intro inside
        rcases List.mem_cons.mp inside with same | within
        · exact other same.symm
        · exact ih later within

private theorem directory?_eq_some (found : directory? path = some directory) :
    ∃ last, '/' ∉ last ∧ path = directory ++ '/' :: last := by
  induction path generalizing directory with
  | nil => cases found
  | cons c rest ih =>
    unfold directory? at found
    split at found
    next below later =>
      cases found
      obtain ⟨last, clean, spelled⟩ := ih later
      exact ⟨last, clean, congrArg (c :: ·) spelled⟩
    next later =>
      split at found
      next slash =>
        cases found
        exact ⟨rest, directory?_eq_none later, congrArg (· :: rest) slash⟩
      next => cases found

theorem isAbsolute_splitOn (path : List Char) : isAbsolute (path.splitOn '/') = isRooted path := by
  cases path with
  | nil => rfl
  | cons c rest =>
    obtain ⟨first, more, split⟩ := List.exists_cons_of_ne_nil (List.splitOn_ne_nil '/' rest)
    rw [List.splitOn_cons_eq_if_modifyHead, split, List.modifyHead_cons]
    split
    next slash =>
      rw [beq_iff_eq.mp slash]
      rfl
    next other =>
      unfold isRooted
      split
      next same =>
        cases same
        exact absurd (beq_self_eq_true '/') other
      next => rfl

private theorem splitOn_joinedPath (origin file : List Char) :
    (joinedPath origin file).splitOn '/' = joined origin file := by
  have rooted : isAbsolute (segments file) = isRooted (slashed file) := isAbsolute_splitOn (slashed file)
  unfold joinedPath joined
  rw [rooted]
  split
  next => rfl
  next =>
    split
    next directory found =>
      obtain ⟨last, clean, spelled⟩ := directory?_eq_some found
      have above : segments origin = directory.splitOn '/' ++ [last] := by
        rw [← List.splitOn_eq_singleton clean, ← List.splitOn_append_cons_self, ← spelled]
        rfl
      rw [above, List.dropLast_concat, List.splitOn_append_cons_self]
      rfl
    next missing =>
      have above : segments origin = [slashed origin] := List.splitOn_eq_singleton (directory?_eq_none missing)
      rw [above]
      rfl

end

section
variable {absolute : Bool} {parts : List (List Char)}

private theorem splitOn_render (normal : Normal absolute parts) :
    (render absolute parts).splitOn '/' =
      root absolute ++ if parts = [] then [[]] else parts := by
  rw [← segments_eq_splitOn (not_mem_render normal.clean absolute), segments_render normal.clean]

theorem isRooted_render (normal : Normal absolute parts) : isRooted (render absolute parts) = absolute := by
  rw [← isAbsolute_splitOn, ← segments_eq_splitOn (not_mem_render normal.clean absolute), isAbsolute_render normal]

theorem follow_render (normal : Normal absolute parts) (place : List (List Char)) :
    follow place (render absolute parts) = parts.foldl step (departure absolute place) := by
  have idle (place : List (List Char)) :
      (if parts = [] then [[]] else parts).foldl step place = parts.foldl step place := by
    split
    next empty =>
      rw [empty]
      exact step_nil
    next => rfl
  rw [follow, isRooted_render normal, splitOn_render normal, List.foldl_append, idle]
  cases absolute with
  | false => rfl
  | true => rfl

/-- Normal paths that lead to the same places are the same. -/
theorem Normal.eq_of_follow {others : List (List Char)} (normal : Normal absolute parts)
    (normal' : Normal absolute others)
    (same : ∀ place, IsPlace place → follow place (render absolute parts) = follow place (render absolute others)) :
    parts = others := by
  obtain ⟨climbs, names, spelled, top, named⟩ := normal.exists_climbs
  obtain ⟨climbs', names', spelled', top', named'⟩ := normal'.exists_climbs
  have ends (place : List (List Char)) (real : IsPlace place) :
      names.reverse ++ (departure absolute place).drop climbs =
        names'.reverse ++ (departure absolute place).drop climbs' := by
    have same := same place real
    rw [follow_render normal, follow_render normal', spelled, spelled', List.foldl_append, List.foldl_append,
      foldl_step_climbs, foldl_step_climbs, foldl_step_names named, foldl_step_names named'] at same
    exact same
  have descents : names = names' := by
    have root := ends [] (List.forall_mem_nil _)
    rw [departure, ite_self, List.drop_nil, List.drop_nil, List.append_nil, List.append_nil] at root
    exact List.reverse_inj.mp root
  have climbed : climbs = climbs' := by
    cases absolute with
    | true => rw [top rfl, top' rfl]
    | false =>
      have letter : IsName ['a'] := ⟨⟨by decide, by decide⟩, by decide, by decide, by decide⟩
      have deep := ends (List.replicate (climbs + climbs') ['a']) fun name member => by
        rw [List.eq_of_mem_replicate member]
        exact letter
      have depths := congrArg List.length (List.append_cancel_left (descents ▸ deep))
      rw [departure, if_neg Bool.false_ne_true, List.length_drop, List.length_drop, List.length_replicate] at depths
      omega
  rw [spelled, spelled', descents, climbed]

end

/-- From a path without a directory, a path leads to its own normal form. -/
theorem resolve_bare {origin file : String} (bare : directory? (slashed origin.toList) = none) :
    resolve origin file = normalForm file := by
  have above : segments origin.toList = [slashed origin.toList] :=
    List.splitOn_eq_singleton (directory?_eq_none bare)
  have same : joined origin.toList file.toList = segments file.toList := by
    rw [joined, above, List.dropLast_singleton, List.nil_append, ite_self]
  rw [resolve_of_joined same, normalForm]

/-- A resolved path is spelled by a normal path, and leads where the joined path leads. -/
theorem exists_resolve (origin file : String) :
    ∃ parts, Normal (isRooted (joinedPath origin.toList file.toList)) parts ∧
      (resolve origin file).toList = render (isRooted (joinedPath origin.toList file.toList)) parts ∧
      ∀ place, follow place (resolve origin file).toList = follow place (joinedPath origin.toList file.toList) := by
  have split := splitOn_joinedPath origin.toList file.toList
  have clean : ∀ segment ∈ joined origin.toList file.toList, IsSegment segment := fun _ => isSegment_joined
  have rooted : isAbsolute (joined origin.toList file.toList) = isRooted (joinedPath origin.toList file.toList) := by
    rw [← split, isAbsolute_splitOn]
  have normal := normalize_normal clean
  have walked := foldl_step_normalize clean
  have spelled : (resolve origin file).toList =
      render (isAbsolute (joined origin.toList file.toList)) (normalize (joined origin.toList file.toList)) :=
    String.toList_ofList
  rw [rooted] at normal spelled walked
  refine ⟨_, normal, spelled, fun place => ?_⟩
  rw [spelled, follow_render normal, walked, follow, split]

/-- The resolved path starts from the root exactly if the joined path does, and leads from every
place to where the joined path leads. It climbs, unless it starts from the root, and then descends.
Of the relative paths, as of those from the root, two are the same exactly if their joined paths lead
from every place to the same one; and resolved once more, a path stays as it is. -/
theorem resolve_canonical (origin file : String) :
    isRooted (resolve origin file).toList = isRooted (joinedPath origin.toList file.toList) ∧
      (∀ place, follow place (resolve origin file).toList = follow place (joinedPath origin.toList file.toList)) ∧
      (∃ climbs names, (resolve origin file).toList =
          render (isRooted (resolve origin file).toList) (List.replicate climbs ['.', '.'] ++ names) ∧
        (isRooted (resolve origin file).toList = true → climbs = 0) ∧ ∀ name ∈ names, IsName name) ∧
      (∀ other inclusion, isRooted (resolve other inclusion).toList = isRooted (resolve origin file).toList →
        (resolve other inclusion = resolve origin file ↔ ∀ place, IsPlace place →
          follow place (joinedPath other.toList inclusion.toList) =
            follow place (joinedPath origin.toList file.toList))) ∧
      ∀ other, directory? (slashed other.toList) = none → resolve other (resolve origin file) = resolve origin file := by
  obtain ⟨parts, normal, spelled, leads⟩ := exists_resolve origin file
  have rooted : isRooted (resolve origin file).toList = isRooted (joinedPath origin.toList file.toList) :=
    (congrArg isRooted spelled).trans (isRooted_render normal)
  refine ⟨rooted, leads, ?_, ?_, ?_⟩
  · obtain ⟨climbs, names, built, top, named⟩ := normal.exists_climbs
    rw [rooted]
    exact ⟨climbs, names, built ▸ spelled, top, named⟩
  · intro other inclusion alike
    obtain ⟨parts', normal', spelled', leads'⟩ := exists_resolve other inclusion
    constructor
    · intro same place _
      rw [← leads', ← leads, same]
    · intro same
      rw [rooted, spelled', isRooted_render normal'] at alike
      rw [alike] at normal' spelled'
      have parted : parts' = parts := by
        apply normal'.eq_of_follow normal
        intro place real
        rw [← spelled', ← spelled, leads', leads]
        exact same place real
      apply String.toList_injective
      rw [spelled', spelled, parted]
  · intro other bare
    rw [resolve_bare bare]
    exact normalForm_eq_iff.mpr (resolve_isNormal origin file)

/-! An include in an included template, seen from the template that includes. -/

def IsSeparator (c : Char) : Prop :=
  c = '/' ∨ c = '\\'

section
variable {front path : List Char}

private theorem slashed_append (front path : List Char) : slashed (front ++ path) = slashed front ++ slashed path :=
  List.map_append

private theorem slashed_separator {c : Char} (separator : IsSeparator c) : slashed [c] = ['/'] := by
  rcases separator with rfl | rfl
  · rfl
  · rfl

private theorem segments_append (ends : ∀ c ∈ front.getLast?, IsSeparator c) (path : List Char) :
    segments (front ++ path) = (segments front).dropLast ++ segments path := by
  rcases List.eq_nil_or_concat front with rfl | ⟨directory, last, spelled⟩
  · rfl
  · rw [List.concat_eq_append] at spelled
    subst spelled
    have separator : slashed [last] = ['/'] := slashed_separator (ends last List.getLast?_concat)
    have cut (path : List Char) : segments (directory ++ [last] ++ path) = segments directory ++ segments path := by
      have spelled : slashed (directory ++ [last] ++ path) = slashed directory ++ '/' :: slashed path := by
        rw [slashed_append, slashed_append, separator, List.append_assoc, List.singleton_append]
      exact (congrArg (List.splitOn '/') spelled).trans (List.splitOn_append_cons_self _ _)
    have bare : segments (directory ++ [last]) = segments directory ++ [[]] := by
      have bare := cut []
      rwa [List.append_nil] at bare
    rw [cut, bare, List.dropLast_concat]

theorem isAbsolute_append {front rest : List (List Char)} (nonempty : rest ≠ []) (relative : isAbsolute rest = false) :
    isAbsolute (front ++ rest) = (front.head? == some []) := by
  obtain ⟨segment, more, rfl⟩ := List.exists_cons_of_ne_nil nonempty
  cases front with
  | nil => exact relative
  | cons first between =>
    cases first with
    | nil =>
      cases between with
      | nil => rfl
      | cons second others => rfl
    | cons c name => rfl

private theorem isAbsolute_segments (relative : ∀ c ∈ path.head?, ¬IsSeparator c) :
    isAbsolute (segments path) = false := by
  cases path with
  | nil => rfl
  | cons c rest =>
    obtain ⟨slash, backslash⟩ := not_or.mp (relative c rfl)
    have spelled : slashed (c :: rest) = c :: slashed rest := congrArg (· :: slashed rest) (if_neg backslash)
    have split : segments (c :: rest) = (c :: slashed rest).splitOn '/' := congrArg (List.splitOn '/') spelled
    rw [split, isAbsolute_splitOn]
    unfold isRooted
    split
    next same => exact absurd (List.cons.inj same).1 slash
    next => rfl

/-- Joined behind a directory, the directory goes with the segments of the origin. -/
theorem joined_append (origin : List Char) (ends : ∀ c ∈ front.getLast?, IsSeparator c)
    (relative : isAbsolute (segments path) = false) :
    joined origin (front ++ path) = (joined origin front).dropLast ++ segments path := by
  have whole := segments_append ends path
  have bare : segments front = (segments front).dropLast ++ [[]] := by
    have bare := segments_append ends []
    rwa [List.append_nil] at bare
  have alike : isAbsolute (segments (front ++ path)) = isAbsolute (segments front) := by
    rw [whole, bare, List.dropLast_concat, isAbsolute_append (segments_ne_nil path) relative,
      isAbsolute_append (List.cons_ne_nil _ _) (isAbsolute_singleton [])]
  unfold joined
  rw [alike, whole]
  split
  next => rfl
  next => rw [List.dropLast_append_of_ne_nil (segments_ne_nil front), List.append_assoc]

end

private theorem advance_name {absolute : Bool} {visited : List (List Char)} {name : List Char} (plain : IsName name) :
    advance absolute visited name = name :: visited := by
  unfold advance
  rw [if_neg (not_or.mpr ⟨plain.nonempty, plain.moving⟩), if_neg plain.descending]

private theorem normalize_concat {base : List (List Char)} {name : List Char} (plain : IsName name) :
    normalize (base ++ [name]) = (base.foldl (advance (isAbsolute (base ++ [name]))) []).reverse ++ [name] := by
  rw [normalize, List.foldl_append, List.foldl_cons, List.foldl_nil, advance_name plain, List.reverse_cons]

/-- Seen from a template at a normal path, a path is walked on from the directory of the template. -/
theorem joined_render {absolute : Bool} {directory : List (List Char)} {name file : List Char}
    (normal : Normal absolute (directory ++ [name])) (relative : isAbsolute (segments file) = false) :
    isAbsolute (joined (render absolute (directory ++ [name])) file) = absolute ∧
      normalize (joined (render absolute (directory ++ [name])) file) =
        ((segments file).foldl (advance absolute) directory.reverse).reverse := by
  have above : segments (render absolute (directory ++ [name])) = (root absolute ++ directory) ++ [name] := by
    rw [segments_render normal.clean,
      if_neg (List.append_ne_nil_of_right_ne_nil _ (List.cons_ne_nil _ _)), List.append_assoc]
  have path : joined (render absolute (directory ++ [name])) file = (root absolute ++ directory) ++ segments file := by
    rw [joined, relative, if_neg Bool.false_ne_true, above, List.dropLast_concat]
  have rooted : isAbsolute ((root absolute ++ directory) ++ segments file) = absolute := by
    rw [isAbsolute_append (segments_ne_nil file) relative,
      ← isAbsolute_append (List.cons_ne_nil _ _) (isAbsolute_singleton name), ← above, isAbsolute_render normal]
  have reached : (root absolute ++ directory).foldl (advance absolute) [] = directory.reverse :=
    foldl_advance_root (normal.sublist (List.sublist_append_left _ _))
  rw [path, normalize, rooted, List.foldl_append, reached]
  exact ⟨rfl, rfl⟩

/-- What `file` leads to from the template that `front ++ name` leads to, it leads to behind `front`. -/
theorem resolve_resolve (origin front name file : String) (ends : ∀ c ∈ front.toList.getLast?, IsSeparator c)
    (plain : IsName name.toList) (relative : ∀ c ∈ file.toList.head?, ¬IsSeparator c) :
    resolve (resolve origin (front ++ name)) file = resolve origin (front ++ file) := by
  have relative := isAbsolute_segments relative
  have own : segments name.toList = [name.toList] := segments_of_isSegment plain.segment
  have lone := isAbsolute_singleton name.toList
  obtain ⟨base, based⟩ : ∃ base, base = (joined origin.toList front.toList).dropLast := ⟨_, rfl⟩
  have included : joined origin.toList (front ++ name).toList = base ++ [name.toList] := by
    rw [String.toList_append, joined_append _ ends (own ▸ lone), own, based]
  have direct : joined origin.toList (front ++ file).toList = base ++ segments file.toList := by
    rw [String.toList_append, joined_append _ ends relative, based]
  obtain ⟨absolute, rooted⟩ : ∃ absolute, isAbsolute (base ++ [name.toList]) = absolute := ⟨_, rfl⟩
  have rooted' : isAbsolute (base ++ segments file.toList) = absolute := by
    rw [isAbsolute_append (segments_ne_nil _) relative, ← isAbsolute_append (List.cons_ne_nil _ _) lone, rooted]
  have reached : normalize (base ++ [name.toList]) =
      (base.foldl (advance absolute) []).reverse ++ [name.toList] := by
    rw [normalize_concat plain, rooted]
  have normal : Normal absolute ((base.foldl (advance absolute) []).reverse ++ [name.toList]) := by
    rw [← reached, ← rooted, ← included]
    exact normalize_normal fun _ => isSegment_joined
  have spelled : (resolve origin (front ++ name)).toList =
      render absolute ((base.foldl (advance absolute) []).reverse ++ [name.toList]) := by
    rw [resolve_of_joined included, String.toList_ofList, rooted, reached]
  obtain ⟨top, walked⟩ := joined_render normal relative
  rw [resolve_of_joined rfl, resolve_of_joined direct, spelled, top, walked, rooted', normalize, rooted',
    List.foldl_append, List.reverse_reverse]

/-- The included template lies above the directory of its origin, and its own include leads further up. -/
theorem resolve_resolve_above :
    resolve (resolve "a\\b/c.tt" ("../..//../x/" ++ "y.tt")) "./..\\../../z" =
      resolve "a\\b/c.tt" ("../..//../x/" ++ "./..\\../../z") := by
  apply resolve_resolve
  · intro c last
    cases last
    exact .inl rfl
  · exact ⟨⟨by decide, by decide⟩, by decide, by decide, by decide⟩
  · intro c first
    cases first
    exact not_or.mpr ⟨by decide, by decide⟩

end TextTemplate.SourcePath
