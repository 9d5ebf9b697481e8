import Mathlib.Data.List.Induction
import TextTemplate.Command.FileTree
import TextTemplate.Proofs.FileContents
import TextTemplate.Proofs.NormalPaths

/-! Where paths lead in a tree of files. A path means a name in a directory, whether the file of that name
is looked up or written; which directory that is depends on the directories of the tree only. Joining a name
to a path, and taking the directory of a path, lead to the same directory however the path is spelled. -/

namespace TextTemplate

namespace PathText

theorem parts_ne_nil (path : String) : parts path ≠ [] := by
  intro none
  exact List.splitOn_ne_nil _ _ (List.map_eq_nil_iff.mp none)

theorem clean_of_mem_parts {path part : String} (member : part ∈ parts path) : '/' ∉ part.toList := by
  obtain ⟨segment, split, rfl⟩ := List.mem_map.mp member
  rw [String.toList_ofList]
  exact (SourcePath.of_mem_splitOn split).1

private theorem parts_of_clean {name : String} (clean : '/' ∉ name.toList) : parts name = [name] := by
  rw [parts, List.splitOn_eq_singleton clean, List.map_singleton, String.ofList_toList]

private theorem parts_append (before after : String) :
    parts (before ++ "/" ++ after) = parts before ++ parts after := by
  simp only [parts, String.toList_append, List.append_assoc]
  rw [← List.map_append]
  exact congrArg _ (List.splitOn_append_cons_self _ _)

private theorem parts_intercalate {names : List String} (clean : ∀ name ∈ names, '/' ∉ name.toList)
    (some : names ≠ []) :
    parts ("/".intercalate names) = names := by
  have split := List.splitOn_intercalate '/'
    (fun segment (member : segment ∈ names.map String.toList) => by
      obtain ⟨name, inside, rfl⟩ := List.mem_map.mp member
      exact clean name inside)
    (fun none => some (List.map_eq_nil_iff.mp none))
  rw [parts, String.toList_intercalate]
  refine (congrArg _ split).trans ?_
  rw [List.map_map]
  exact (List.map_congr_left fun name _ => String.ofList_toList).trans (List.map_id names)

theorem fileName_concat {path name : String} {kept : List String} (split : parts path = kept ++ [name]) :
    fileName path = name := by
  rw [fileName, split, List.getLast?_concat, Option.getD_some]

theorem fileName_clean (path : String) : '/' ∉ (fileName path).toList := by
  have last := List.getLast?_eq_some_getLast (parts_ne_nil path)
  rw [fileName, last, Option.getD_some]
  exact clean_of_mem_parts (List.getLast_mem _)

theorem parts_eq_concat (path : String) : parts path = (parts path).dropLast ++ [fileName path] := by
  have last := List.getLast?_eq_some_getLast (parts_ne_nil path)
  rw [fileName, last, Option.getD_some, List.dropLast_concat_getLast]

private theorem suffix_intercalate {α : Type} (separator last : List α) (front : List (List α)) :
    last <:+ separator.intercalate (front ++ [last]) := by
  induction front with
  | nil => exact ⟨[], by rw [List.nil_append, List.nil_append, List.intercalate_singleton]⟩
  | cons first rest ih =>
    obtain ⟨second, more, split⟩ :=
      List.exists_cons_of_ne_nil (List.append_ne_nil_of_right_ne_nil rest (List.cons_ne_nil last []))
    rw [split] at ih
    rw [List.cons_append, split, List.intercalate_cons_cons]
    exact ih.trans (List.suffix_append _ _)

private theorem fileName_suffix (path : String) : (fileName path).toList <:+ path.toList := by
  have whole : ['/'].intercalate (path.toList.splitOn '/') = path.toList := List.intercalate_splitOn '/'
  have some := List.splitOn_ne_nil '/' path.toList
  have last : (fileName path).toList = (path.toList.splitOn '/').getLast some := by
    rw [fileName, parts, List.getLast?_map, List.getLast?_eq_some_getLast some, Option.map_some, Option.getD_some,
      String.toList_ofList]
  have inside := suffix_intercalate ['/'] ((path.toList.splitOn '/').getLast some) (path.toList.splitOn '/').dropLast
  rw [List.dropLast_concat_getLast, whole] at inside
  rwa [last]

theorem exists_parts_join (path : String) :
    ∃ kept, (parts path = kept ∨ parts path = kept ++ [""]) ∧
      ∀ name, parts (join path name) = kept ++ parts name := by
  by_cases empty : path = ""
  · refine ⟨[], .inr (by rw [empty]; rfl), fun name => ?_⟩
    rw [join, if_pos (.inl empty), empty, String.empty_append, List.nil_append]
  by_cases closed : path.toList.getLast? = some '/'
  · obtain ⟨front, spelled⟩ := List.getLast?_eq_some_iff.mp closed
    have spelled : path = String.ofList front ++ "/" := by
      rw [← String.toList_inj, spelled, String.toList_append, String.toList_ofList]
      rfl
    refine ⟨parts (String.ofList front), .inr ?_, fun name => ?_⟩
    · rw [spelled, ← String.append_empty (s := String.ofList front ++ "/"), parts_append]
      rfl
    · rw [join, if_pos (.inr closed), spelled, parts_append]
  · refine ⟨parts path, .inl rfl, fun name => ?_⟩
    rw [join, if_neg (not_or.mpr ⟨empty, closed⟩), parts_append]

theorem exists_parts_join_name (path : String) :
    ∃ kept, (parts path = kept ∨ parts path = kept ++ [""]) ∧
      ∀ name : String, '/' ∉ name.toList → parts (join path name) = kept ++ [name] := by
  obtain ⟨kept, own, joined⟩ := exists_parts_join path
  refine ⟨kept, own, fun name clean => ?_⟩
  rw [joined, parts_of_clean clean]

theorem fileName_join {path name : String} (clean : '/' ∉ name.toList) : fileName (join path name) = name := by
  obtain ⟨kept, -, joined⟩ := exists_parts_join_name path
  exact fileName_concat (joined name clean)

theorem fileName_join_suffix (path name : String) : (fileName (join path name)).toList <:+ name.toList := by
  obtain ⟨kept, -, joined⟩ := exists_parts_join path
  have last : fileName (join path name) = fileName name := by
    apply fileName_concat
    rw [joined, List.append_assoc, ← parts_eq_concat]
  rw [last]
  exact fileName_suffix name

theorem directory_join {path first second : String} (clean : '/' ∉ first.toList) (other : '/' ∉ second.toList) :
    directory (join path first) = directory (join path second) := by
  obtain ⟨kept, -, joined⟩ := exists_parts_join_name path
  rw [directory, directory, joined first clean, joined second other, List.dropLast_concat, List.dropLast_concat]

theorem startsWith_slash_iff (path : String) :
    path.startsWith "/" = true ↔ ∃ second rest, parts path = "" :: second :: rest := by
  rw [String.startsWith_string_iff, parts]
  cases path.toList with
  | nil => simp
  | cons first rest =>
    obtain ⟨segment, more, split⟩ := List.exists_cons_of_ne_nil (List.splitOn_ne_nil '/' rest)
    rw [List.splitOn_cons_eq_if_modifyHead, split]
    by_cases slash : first = '/'
    · simp [slash]
    · simp [slash, Ne.symm slash]

private theorem startsWith_join {path name : String} (clean : '/' ∉ name.toList) :
    (join path name).startsWith "/" = path.startsWith "/" := by
  rw [Bool.eq_iff_iff, String.startsWith_string_iff, String.startsWith_string_iff]
  by_cases empty : path = ""
  · rw [join, if_pos (.inl empty), empty, String.empty_append]
    constructor
    · intro slash
      exact absurd (slash.subset List.mem_cons_self) clean
    · intro slash
      cases List.prefix_nil.mp slash
  · obtain ⟨first, rest, spelled⟩ := List.exists_cons_of_ne_nil (fun none => empty (String.toList_eq_nil_iff.mp none))
    have begins : ∃ more, (join path name).toList = first :: more := by
      rw [join]
      split <;> simp only [String.toList_append, spelled, List.cons_append, List.cons.injEq, true_and, exists_eq']
    obtain ⟨more, joined⟩ := begins
    rw [joined, spelled]
    change ['/'] <+: first :: more ↔ ['/'] <+: first :: rest
    simp only [List.cons_prefix_cons, List.nil_prefix]

private theorem dropIdle_concat_idle {first : String} (rest : List String) {part : String}
    (idle : part = "" ∨ part = ".") :
    dropIdle (first :: (rest ++ [part])) = dropIdle (first :: rest) := by
  simp only [dropIdle, List.reverse_append, List.reverse_singleton, List.singleton_append]
  rw [List.dropWhile_cons, if_pos (decide_eq_true idle)]

private theorem dropIdle_concat_busy {first : String} (rest : List String) {part : String}
    (busy : ¬(part = "" ∨ part = ".")) :
    dropIdle (first :: (rest ++ [part])) = first :: (rest ++ [part]) := by
  simp only [dropIdle, List.reverse_append, List.reverse_singleton, List.singleton_append]
  rw [List.dropWhile_cons, if_neg (fun idle => busy (of_decide_eq_true idle)), List.reverse_cons, List.reverse_reverse]

private theorem dropIdle_subset (names : List String) : dropIdle names ⊆ names := by
  cases names with
  | nil => exact List.Subset.refl _
  | cons first rest =>
    refine List.cons_subset_cons first fun name member => ?_
    exact List.mem_reverse.mp ((List.dropWhile_sublist _).subset (List.mem_reverse.mp member))

end PathText

namespace FileTree
open PathText

/-- The directory that parts of a path lead to, innermost name first. -/
def way? (tree : FileTree) (start parts : List String) : Option (List String) :=
  (parts.foldlM tree.follow start).filter fun names => tree.isDirectoryAt names.reverse

def directory? (tree : FileTree) (path : String) : Option (List String) :=
  (tree.way? (startOf path) (parts path)).map List.reverse

/-- The names of the directory that holds what a path means. -/
def holder? (tree : FileTree) (path : String) : Option (List String) :=
  (tree.way? (startOf path) (parts path).dropLast).map List.reverse

/-- The names of the place a path means in a directory, whether anything stands there or not. -/
def place? (tree : FileTree) (path : String) : Option (List String) :=
  (tree.holder? path).map fun names => names ++ [fileName path]

variable {tree : FileTree} {start names : List String} {path name part : String} {content : ByteArray}

theorem way?_cons (tree : FileTree) (start : List String) (part : String) (rest : List String) :
    tree.way? start (part :: rest) = (tree.follow start part).bind fun next => tree.way? next rest := by
  unfold way?
  rw [List.foldlM_cons]
  cases tree.follow start part <;> rfl

theorem way?_nil (tree : FileTree) (start : List String) :
    tree.way? start [] = if tree.isDirectoryAt start.reverse then some start else none := by
  rw [way?, List.foldlM_nil]
  exact Option.filter_some

theorem way?_of_file (nothing : tree.isDirectoryAt start.reverse = false) (parts : List String) :
    tree.way? start parts = none := by
  cases parts with
  | nil => rw [way?_nil, nothing]; rfl
  | cons part rest => rw [way?_cons, follow, nothing]; rfl

private theorem isDirectoryAt_of_way? {parts found : List String} (led : tree.way? start parts = some found) :
    tree.isDirectoryAt found.reverse = true :=
  (Option.filter_eq_some_iff.mp led).2

theorem way?_append (tree : FileTree) (start parts more : List String) :
    tree.way? start (parts ++ more) = (tree.way? start parts).bind fun names => tree.way? names more := by
  induction parts generalizing start with
  | nil =>
    rw [List.nil_append, way?_nil]
    split
    next => rfl
    next nothing => exact way?_of_file (Bool.not_eq_true _ ▸ nothing) more
  | cons part rest ih =>
    rw [List.cons_append, way?_cons, way?_cons, Option.bind_assoc]
    exact congrArg _ (funext fun next => ih next)

theorem way?_idle (idle : part = "" ∨ part = ".") (rest : List String) :
    tree.way? names (part :: rest) = tree.way? names rest := by
  rw [way?_cons, follow, if_pos idle]
  split
  next => rw [Option.bind_some]
  next nothing => rw [Option.bind_none, way?_of_file (Bool.not_eq_true _ ▸ nothing)]

theorem way?_concat_idle (idle : part = "" ∨ part = ".") (parts : List String) :
    tree.way? start (parts ++ [part]) = tree.way? start parts := by
  rw [way?_append]
  simp only [way?_idle idle]
  rw [← way?_append, List.append_nil]

/-- A name leads on, whatever stands there: unless that is a directory, nothing is reached either way. -/
theorem way?_name (busy : ¬(part = "" ∨ part = ".")) (inward : part ≠ "..") (rest : List String) :
    tree.way? names (part :: rest) = tree.way? (part :: names) rest := by
  rw [way?_cons, follow, if_neg busy, if_neg inward]
  by_cases onward : tree.isDirectoryAt (part :: names).reverse
  · have reached : (tree.at? (part :: names).reverse).isSome := by
      rw [← Option.isSome_map, ← standingAt?, isDirectoryAt_iff.mp onward]
      rfl
    have here : tree.isDirectoryAt names.reverse := by
      rw [List.reverse_cons] at onward
      exact isDirectoryAt_of_append onward
    rw [if_pos here, if_pos reached, Option.bind_some]
  · have nowhere := way?_of_file (Bool.not_eq_true _ ▸ onward) rest
    rw [nowhere]
    split
    next =>
      split
      next => exact nowhere
      next => rfl
    next => rfl

private theorem way?_dropIdle (tree : FileTree) (start parts : List String) :
    tree.way? start (dropIdle parts) = tree.way? start parts := by
  cases parts with
  | nil => rfl
  | cons first rest =>
    induction rest using List.reverseRecOn with
    | nil => rfl
    | append_singleton rest part ih =>
      by_cases idle : part = "" ∨ part = "."
      · rw [dropIdle_concat_idle rest idle, ih, ← List.cons_append, way?_concat_idle idle]
      · rw [dropIdle_concat_busy rest idle]

theorem way?_congr {other : FileTree} (same : ∀ names, other.isDirectoryAt names = tree.isDirectoryAt names)
    (start parts : List String) : other.way? start parts = tree.way? start parts := by
  induction parts generalizing start with
  | nil => rw [way?_nil, way?_nil, same]
  | cons part rest ih =>
    by_cases idle : part = "" ∨ part = "."
    · rw [way?_idle idle, way?_idle idle, ih]
    · by_cases outward : part = ".."
      · rw [way?_cons, way?_cons, follow, follow, same, if_neg idle, if_neg idle, if_pos outward, if_pos outward]
        split
        next => exact ih start.tail
        next => rfl
      · rw [way?_name idle outward, way?_name idle outward, ih]

theorem place?_congr {other : FileTree} (same : ∀ names, other.isDirectoryAt names = tree.isDirectoryAt names)
    (path : String) : other.place? path = tree.place? path := by
  unfold place? holder?
  rw [way?_congr same]

theorem directory?_congr {other : FileTree} (same : ∀ names, other.isDirectoryAt names = tree.isDirectoryAt names)
    (path : String) : other.directory? path = tree.directory? path := by
  rw [directory?, directory?, way?_congr same]

/-! Joined paths -/

theorem startOf_join (clean : '/' ∉ name.toList) : startOf (join path name) = startOf path := by
  rw [startOf, startOf, startsWith_join clean]

theorem way?_of_join {kept : List String} (joined : parts path = kept ∨ parts path = kept ++ [""]) :
    tree.way? start (parts path) = tree.way? start kept := by
  rcases joined with same | closed
  · rw [same]
  · rw [closed, way?_concat_idle (.inl rfl)]

/-- What a name joined to a path means is in the directory that the path means. -/
theorem holder?_join (clean : '/' ∉ name.toList) : tree.holder? (join path name) = tree.directory? path := by
  obtain ⟨kept, own, joined⟩ := exists_parts_join_name path
  rw [holder?, directory?, startOf_join clean, joined name clean, List.dropLast_concat, way?_of_join own]

private theorem directory?_join (named : IsName name) :
    tree.directory? (join path name) = (tree.directory? path).bind fun names =>
      if tree.isDirectoryAt (names ++ [name]) then some (names ++ [name]) else none := by
  obtain ⟨kept, own, joined⟩ := exists_parts_join_name path
  obtain ⟨clean, filled, apart, inward⟩ := named
  rw [directory?, directory?, startOf_join clean, joined name clean, way?_of_join own, way?_append]
  simp only [way?_name (not_or.mpr ⟨filled, apart⟩) inward, way?_nil, List.reverse_cons]
  cases tree.way? (startOf path) kept with
  | none => rfl
  | some names =>
    simp only [Option.bind_some, Option.map_some]
    split <;> simp

/-- Names joined to a path lead down from the directory it means. -/
theorem directory?_foldl_join {above below : List String} (led : tree.directory? path = some above)
    (named : ∀ name ∈ below, IsName name) (stands : tree.isDirectoryAt (above ++ below) = true) :
    tree.directory? (below.foldl join path) = some (above ++ below) := by
  induction below generalizing path above with
  | nil => rwa [List.append_nil]
  | cons name rest ih =>
    rw [List.append_cons] at stands ⊢
    refine ih ?_ (fun other member => named other (List.mem_cons_of_mem _ member)) stands
    rw [directory?_join (named name List.mem_cons_self), led, Option.bind_some,
      if_pos (isDirectoryAt_of_append stands)]

/-! The directory of a path -/

private theorem startOf_of_parts {first second : String} {rest : List String}
    (split : parts path = first :: second :: rest) :
    startOf path = if first = "" then ["/"] else [] := by
  have slash := startsWith_slash_iff path
  rw [split] at slash
  unfold startOf
  by_cases top : first = ""
  · rw [if_pos top, if_pos (slash.mpr ⟨second, rest, by rw [top]⟩)]
  · rw [if_neg top, if_neg]
    intro begins
    obtain ⟨_, _, same⟩ := slash.mp begins
    exact top (List.cons.inj same).1

theorem startOf_of_single (split : parts path = [part]) : startOf path = [] := by
  rw [startOf, if_neg]
  intro begins
  obtain ⟨second, rest, same⟩ := (startsWith_slash_iff path).mp begins
  rw [split] at same
  cases same

theorem directory?_directory (tree : FileTree) (path : String) :
    tree.directory? (PathText.directory path) = tree.holder? path := by
  have split := parts_eq_concat path
  have clean : ∀ part ∈ (parts path).dropLast, '/' ∉ part.toList :=
    fun part member => clean_of_mem_parts (List.dropLast_subset _ member)
  unfold directory? holder?
  refine congrArg _ ?_
  rw [← way?_dropIdle tree (startOf path)]
  generalize (parts path).dropLast = front at split clean
  cases front with
  | nil =>
    have nowhere : PathText.directory path = "" := by rw [PathText.directory, split]; rfl
    rw [nowhere, startOf_of_single split]
    exact way?_idle (.inl rfl) []
  | cons first rest =>
    obtain ⟨more, kept⟩ : ∃ more, dropIdle (first :: rest) = first :: more := ⟨_, rfl⟩
    have start : startOf path = if first = "" then ["/"] else [] := by
      cases rest with
      | nil => exact startOf_of_parts split
      | cons second others => exact startOf_of_parts split
    rw [kept, start, PathText.directory, split, List.dropLast_concat, kept]
    split
    next top =>
      obtain ⟨rfl, rfl⟩ := List.cons.inj top
      have slash : parts "/" = ["", ""] := rfl
      rw [slash, startOf_of_parts slash]
      exact way?_idle (.inl rfl) [""]
    next inner =>
      have whole : parts ("/".intercalate (first :: more)) = first :: more :=
        parts_intercalate (fun part member => clean part (dropIdle_subset _ (kept ▸ member))) (List.cons_ne_nil _ _)
      rw [whole]
      cases more with
      | nil => rw [startOf_of_single whole, if_neg (fun empty => inner (by rw [empty]))]
      | cons second others => rw [startOf_of_parts whole]

/-! Looking up and writing -/

def read? (tree : FileTree) (path : String) : Option ByteArray :=
  match tree.find? path with
  | some (.file content) => some content
  | _ => none

theorem read?_eq_some_iff : tree.read? path = some content ↔ tree.find? path = some (.file content) := by
  rw [read?]
  split
  next held found => rw [found, Option.some.injEq, Option.some.injEq, FileTree.file.injEq]
  next other => exact ⟨nofun, fun found => absurd found (other content)⟩

/-- A path with a plain name at its end finds what stands in the place it means. -/
theorem find?_eq (named : IsName (fileName path)) : tree.find? path = (tree.place? path).bind tree.at? := by
  obtain ⟨-, filled, apart, inward⟩ := named
  rw [find?, locate?, place?, holder?, way?, parts_eq_concat path, List.foldlM_append, List.dropLast_concat]
  cases (parts path).dropLast.foldlM tree.follow (startOf path) with
  | none => rfl
  | some names =>
    simp only [Option.filter_some, Option.bind_eq_bind, Option.bind_some, List.foldlM_cons, List.foldlM_nil, follow,
      if_neg (not_or.mpr ⟨filled, apart⟩), if_neg inward]
    split
    next =>
      rw [List.reverse_cons, Option.map_some, Option.map_some, Option.bind_some]
      cases found : tree.at? (names.reverse ++ [fileName path]) with
      | none => rfl
      | some =>
        simp only [Option.isSome_some, if_true, Option.pure_def, Option.bind_some, Option.map_some, List.reverse_cons,
          found]
    next => rfl

theorem find?_of_place {names : List String} (named : IsName (fileName path)) (placed : tree.place? path = some names)
    {found : Option FileTree} (held : tree.at? names = found) : tree.find? path = found := by
  rw [find?_eq named, placed, Option.bind_some, held]

theorem directory?_eq_filter (tree : FileTree) (path : String) :
    tree.directory? path = (tree.locate? path).filter tree.isDirectoryAt := by
  rw [directory?, way?, locate?]
  cases (parts path).foldlM tree.follow (startOf path) with
  | none => rfl
  | some names =>
    simp only [Option.filter_some, Option.map_some]
    split <;> rfl

theorem find?_of_directory? (led : tree.directory? path = some names) : tree.find? path = tree.at? names := by
  rw [directory?_eq_filter] at led
  rw [find?, (Option.filter_eq_some_iff.mp led).1, Option.bind_some]

theorem exists_directory? {entries : List (String × FileTree)} (found : tree.find? path = some (.directory entries)) :
    ∃ names, tree.directory? path = some names ∧ tree.at? names = some (.directory entries) := by
  obtain ⟨names, located, reached⟩ := Option.bind_eq_some_iff.mp found
  refine ⟨names, ?_, reached⟩
  rw [directory?_eq_filter, located, Option.filter_some, if_pos]
  rw [isDirectoryAt, reached]
  rfl

/-- A file can be written in the place a path means, unless that is a directory. -/
theorem write?_eq (tree : FileTree) (path : String) (content : ByteArray) :
    tree.write? path content = (tree.place? path).bind fun place =>
      if tree.isDirectoryAt place then none else some (tree.set place (.file content)) := by
  have spelled : tree.locate? (if PathText.directory path = "" then "." else PathText.directory path) =
      tree.locate? (PathText.directory path) := by
    split
    next empty =>
      have dot : parts "." = ["."] := rfl
      have nothing : parts "" = [""] := rfl
      rw [empty, locate?, locate?, startOf_of_single dot, startOf_of_single nothing, dot, nothing]
      rfl
    next => rfl
  rw [place?, ← directory?_directory, directory?_eq_filter, write?]
  simp only [spelled]
  cases tree.locate? (PathText.directory path) with
  | none => rfl
  | some names =>
    simp only [Option.bind_some, Option.filter_some]
    cases tree.isDirectoryAt names with
    | false => rfl
    | true => simp

theorem place?_eq_some {place : List String} (placed : tree.place? path = some place) :
    ∃ names, place = names ++ [fileName path] ∧ tree.isDirectoryAt names = true := by
  obtain ⟨names, held, rfl⟩ := Option.map_eq_some_iff.mp placed
  obtain ⟨inner, led, rfl⟩ := Option.map_eq_some_iff.mp held
  exact ⟨inner.reverse, rfl, isDirectoryAt_of_way? led⟩

def isWritable (tree : FileTree) (path : String) : Bool :=
  (tree.write? path .empty).isSome

theorem isWritable_iff :
    tree.isWritable path = true ↔ ∃ place, tree.place? path = some place ∧ tree.isDirectoryAt place = false := by
  rw [isWritable, write?_eq]
  cases tree.place? path with
  | none => simp only [Option.bind_none, Option.isSome_none, Bool.false_eq_true, reduceCtorEq, false_and, exists_false]
  | some place =>
    simp only [Option.bind_some, Option.some.injEq, exists_eq_left']
    cases tree.isDirectoryAt place <;> simp

theorem exists_write (writable : tree.isWritable path = true) (content : ByteArray) :
    ∃ after, tree.write? path content = some after := by
  obtain ⟨place, placed, vacant⟩ := isWritable_iff.mp writable
  refine ⟨tree.set place (.file content), ?_⟩
  rw [write?_eq, placed, Option.bind_some, vacant]
  rfl

section Written

variable {after : FileTree} (wrote : tree.write? path content = some after)
include wrote

theorem isWritable_of_write : tree.isWritable path = true := by
  rw [write?_eq] at wrote
  obtain ⟨place, placed, set⟩ := Option.bind_eq_some_iff.mp wrote
  refine isWritable_iff.mpr ⟨place, placed, ?_⟩
  cases vacant : tree.isDirectoryAt place with
  | false => rfl
  | true => rw [vacant] at set; cases set

theorem standingAt?_write {place : List String} (placed : tree.place? path = some place) (names : List String) :
    after.standingAt? names = if names = place then some (.file content) else tree.standingAt? names := by
  obtain ⟨within, rfl, here⟩ := place?_eq_some placed
  rw [write?_eq, placed, Option.bind_some] at wrote
  cases vacant : tree.isDirectoryAt (within ++ [fileName path]) with
  | true => rw [vacant] at wrote; cases wrote
  | false =>
    rw [vacant] at wrote
    cases wrote
    exact standingAt?_set here vacant content names

theorem isDirectoryAt_write (names : List String) : after.isDirectoryAt names = tree.isDirectoryAt names := by
  obtain ⟨place, placed, vacant⟩ := isWritable_iff.mp (isWritable_of_write wrote)
  rw [Bool.eq_iff_iff, isDirectoryAt_iff, isDirectoryAt_iff, standingAt?_write wrote placed]
  split
  next here =>
    subst here
    rw [← isDirectoryAt_iff, vacant]
    simp only [Option.some.injEq, reduceCtorEq, Bool.false_eq_true]
  next => rfl

theorem find?_write (named : IsName (fileName path)) : after.find? path = some (.file content) := by
  obtain ⟨place, placed, -⟩ := isWritable_iff.mp (isWritable_of_write wrote)
  rw [find?_eq named, place?_congr (isDirectoryAt_write wrote), placed, Option.bind_some, at?_file_iff,
    standingAt?_write wrote placed, if_pos rfl]

end Written

end FileTree

end TextTemplate
