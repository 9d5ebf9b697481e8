import TextTemplate.Command.FileTree

/-! What stands where in a tree of files. Writing a file into a directory changes what stands in its own
place and nowhere else, so the directories of a tree stay the same. The files below a directory are those
that names lead to, each listed once if no two entries of a directory share a name. -/

namespace TextTemplate.FileTree

/-- What a place holds itself, apart from what is below it. -/
inductive Standing where
  | directory
  | file (content : ByteArray)

def standing : FileTree → Standing
  | .file content => .file content
  | .directory _ => .directory

def standingAt? (tree : FileTree) (names : List String) : Option Standing :=
  (tree.at? names).map standing

variable {tree : FileTree} {names : List String} {content : ByteArray}

private theorem at?_nil (tree : FileTree) : tree.at? [] = some tree := rfl

theorem at?_cons (tree : FileTree) (name : String) (rest : List String) :
    tree.at? (name :: rest) = (tree.entry? name).bind fun below => below.at? rest := rfl

theorem at?_append (tree : FileTree) (names more : List String) :
    tree.at? (names ++ more) = (tree.at? names).bind fun below => below.at? more :=
  List.foldlM_append

theorem at?_file (content : ByteArray) (name : String) (rest : List String) :
    (FileTree.file content).at? (name :: rest) = none := rfl

private theorem standingAt?_cons (tree : FileTree) (name : String) (rest : List String) :
    tree.standingAt? (name :: rest) = (tree.entry? name).bind fun below => below.standingAt? rest := by
  unfold standingAt?
  rw [at?_cons]
  cases tree.entry? name <;> rfl

theorem map_standing_file {found : Option FileTree} :
    found.map standing = some (.file content) ↔ found = some (.file content) := by
  constructor
  · intro here
    obtain ⟨held, rfl, stands⟩ := Option.map_eq_some_iff.mp here
    cases held with
    | file => cases stands; rfl
    | directory => cases stands
  · rintro rfl
    rfl

theorem at?_file_iff : tree.at? names = some (.file content) ↔ tree.standingAt? names = some (.file content) :=
  map_standing_file.symm

theorem isDirectoryAt_iff : tree.isDirectoryAt names = true ↔ tree.standingAt? names = some .directory := by
  unfold isDirectoryAt standingAt?
  cases tree.at? names with
  | none => simp only [Option.map_none, Option.getD_none, Bool.false_eq_true, reduceCtorEq]
  | some found =>
    cases found <;>
      simp only [Option.map_some, Option.getD_some, isDirectory, standing, Bool.false_eq_true, Option.some.injEq,
        reduceCtorEq]

theorem exists_entries (here : tree.isDirectoryAt names = true) :
    ∃ entries, tree.at? names = some (.directory entries) := by
  obtain ⟨found, reached, stands⟩ := Option.map_eq_some_iff.mp (isDirectoryAt_iff.mp here)
  cases found with
  | file => cases stands
  | directory entries => exact ⟨entries, reached⟩

private theorem isDirectoryAt_cons (tree : FileTree) (name : String) (rest : List String) :
    tree.isDirectoryAt (name :: rest) = ((tree.entry? name).map fun below => below.isDirectoryAt rest).getD false := by
  unfold isDirectoryAt
  rw [at?_cons]
  cases tree.entry? name <;> rfl

theorem isDirectoryAt_of_below {more : List String} (here : (tree.at? (names ++ more)).isSome) (below : more ≠ []) :
    tree.isDirectoryAt names = true := by
  obtain ⟨last, reached⟩ := Option.isSome_iff_exists.mp here
  rw [at?_append] at reached
  obtain ⟨found, stands, onward⟩ := Option.bind_eq_some_iff.mp reached
  obtain ⟨name, rest, rfl⟩ := List.exists_cons_of_ne_nil below
  cases found with
  | file => cases onward
  | directory => rw [isDirectoryAt, stands]; rfl

private theorem standingAt?_below_vacant {more : List String} (vacant : tree.isDirectoryAt names = false)
    (below : more ≠ []) :
    tree.standingAt? (names ++ more) = none := by
  cases found : tree.at? (names ++ more) with
  | none => rw [standingAt?, found, Option.map_none]
  | some last =>
    rw [isDirectoryAt_of_below (Option.isSome_of_eq_some found) below] at vacant
    cases vacant

theorem isDirectoryAt_of_append {more : List String} (here : tree.isDirectoryAt (names ++ more) = true) :
    tree.isDirectoryAt names = true := by
  by_cases none : more = []
  · rwa [none, List.append_nil] at here
  · have reached := isDirectoryAt_iff.mp here
    exact isDirectoryAt_of_below (by rw [← Option.isSome_map, ← standingAt?, reached]; rfl) none

/-! Writing -/

theorem entry?_cons (entry : String × FileTree) (rest : List (String × FileTree)) (name : String) :
    entry? (directory (entry :: rest)) name =
      if entry.1 = name then some entry.2 else entry? (directory rest) name := by
  by_cases same : entry.1 = name <;> simp [ entry?, same]

private theorem entry?_setEntry (name : String) (value : FileTree) (entries : List (String × FileTree))
    (other : String) :
    entry? (directory (setEntry name value entries)) other =
      if other = name then some value else entry? (directory entries) other := by
  induction entries with
  | nil => by_cases same : other = name <;> simp [setEntry, entry?, same, eq_comm]
  | cons entry rest ih =>
    rw [setEntry]
    split
    next =>
      simp only [entry?_cons, eq_comm]
    next =>
      split
      next shared =>
        by_cases same : other = name
        · rw [entry?_cons, if_pos same.symm, if_pos same]
        · have other : name ≠ other := Ne.symm same
          simp only [entry?_cons, ← shared, if_neg other, if_neg same]
      next apart =>
        rw [entry?_cons, entry?_cons, ih]
        by_cases own : entry.1 = other
        · rw [if_pos own, if_pos own, if_neg (fun equal => apart (equal.symm.trans own.symm))]
        · rw [if_neg own, if_neg own]

/-- A file written into a directory, where no directory stands, stands there; everything else stands where
it stood. -/
theorem standingAt?_set {name : String} (within : tree.isDirectoryAt names = true)
    (vacant : tree.isDirectoryAt (names ++ [name]) = false) (content : ByteArray) (other : List String) :
    (tree.set (names ++ [name]) (.file content)).standingAt? other =
      if other = names ++ [name] then some (.file content) else tree.standingAt? other := by
  induction names generalizing tree other with
  | nil =>
    cases tree with
    | file => cases within
    | directory entries =>
      cases other with
      | nil => rfl
      | cons first rest =>
        rw [List.nil_append, set, set, standingAt?_cons, standingAt?_cons, entry?_setEntry]
        by_cases same : first = name
        · subst same
          rw [if_pos rfl, Option.bind_some]
          cases rest with
          | nil => rw [if_pos rfl]; rfl
          | cons second more =>
            have nothing := standingAt?_below_vacant vacant (List.cons_ne_nil second more)
            rw [List.nil_append, List.singleton_append, standingAt?_cons] at nothing
            rw [if_neg (by simp), nothing]
            rfl
        · rw [if_neg same, if_neg (fun equal => same (List.cons.inj equal).1)]
  | cons above names ih =>
    cases tree with
    | file => cases within
    | directory entries =>
      rw [isDirectoryAt_cons] at within
      rw [List.cons_append, isDirectoryAt_cons] at vacant
      obtain ⟨below, stands⟩ : ∃ below, entry? (directory entries) above = some below := by
        cases stands : entry? (directory entries) above with
        | none => rw [stands] at within; cases within
        | some below => exact ⟨below, rfl⟩
      rw [stands] at within vacant
      cases other with
      | nil => rfl
      | cons first rest =>
        rw [List.cons_append, set, standingAt?_cons, standingAt?_cons, entry?_setEntry, stands, Option.getD_some]
        by_cases same : first = above
        · subst same
          rw [if_pos rfl, Option.bind_some, ih within vacant, stands, Option.bind_some]
          simp only [List.cons.injEq, true_and]
        · rw [if_neg same, if_neg (fun equal => same (List.cons.inj equal).1)]

/-! Walking -/

def IsName (name : String) : Prop :=
  '/' ∉ name.toList ∧ name ≠ "" ∧ name ≠ "." ∧ name ≠ ".."

instance (name : String) : Decidable (IsName name) :=
  inferInstanceAs (Decidable (_ ∧ _))

mutual

def isProper : FileTree → Bool
  | .file _ => true
  | .directory entries => areProper entries

def areProper : List (String × FileTree) → Bool
  | [] => true
  | entry :: rest =>
    decide (IsName entry.1) && decide (entry.1 ∉ rest.map Prod.fst) && entry.2.isProper && areProper rest

end

mutual

def leaves : FileTree → List (List String × ByteArray)
  | .file content => [([], content)]
  | .directory entries => leavesOf entries

def leavesOf : List (String × FileTree) → List (List String × ByteArray)
  | [] => []
  | entry :: rest => entry.2.leaves.map (fun leaf => (entry.1 :: leaf.1, leaf.2)) ++ leavesOf rest

end

mutual

theorem files_eq_leaves (path : String) :
    ∀ tree : FileTree, tree.files path = tree.leaves.map fun leaf => (leaf.1.foldl PathText.join path, leaf.2)
  | .file content => by rw [files, leaves]; rfl
  | .directory entries => by rw [files, leaves, filesOf_eq_leaves]

theorem filesOf_eq_leaves (path : String) :
    ∀ entries : List (String × FileTree),
      filesOf path entries = (leavesOf entries).map fun leaf => (leaf.1.foldl PathText.join path, leaf.2)
  | [] => by rw [filesOf, leavesOf]; rfl
  | (name, below) :: rest => by
    rw [filesOf, leavesOf, List.map_append, List.map_map, files_eq_leaves, filesOf_eq_leaves]
    rfl

end

theorem areProper_cons {name : String} {below : FileTree} {rest : List (String × FileTree)} :
    areProper ((name, below) :: rest) = true ↔
      IsName name ∧ name ∉ rest.map Prod.fst ∧ below.isProper = true ∧ areProper rest = true := by
  simp only [areProper, Bool.and_eq_true, decide_eq_true_eq, and_assoc]

theorem of_mem_areProper {entries : List (String × FileTree)} {name : String} {below : FileTree}
    (proper : areProper entries = true) (member : (name, below) ∈ entries) :
    IsName name ∧ below.isProper = true := by
  induction entries with
  | nil => cases member
  | cons entry rest ih =>
    obtain ⟨named, -, inner, others⟩ := areProper_cons.mp proper
    rcases List.mem_cons.mp member with rfl | later
    · exact ⟨named, inner⟩
    · exact ih others later

theorem entry?_eq_some_iff {entries : List (String × FileTree)} {name : String} {below : FileTree}
    (proper : areProper entries = true) :
    entry? (directory entries) name = some below ↔ (name, below) ∈ entries := by
  induction entries with
  | nil => simp only [ entry?, List.find?_nil, Option.map_none, List.not_mem_nil, reduceCtorEq]
  | cons entry rest ih =>
    obtain ⟨-, fresh, -, others⟩ := areProper_cons.mp proper
    rw [entry?_cons, List.mem_cons]
    split
    next same =>
      constructor
      · intro found
        exact .inl (Prod.ext same.symm (Option.some.inj found).symm)
      · rintro (rfl | later)
        · rfl
        · exact absurd (same ▸ List.mem_map_of_mem later) fresh
    next apart =>
      rw [ih others]
      constructor
      · exact .inr
      · rintro (rfl | later)
        · exact absurd rfl apart
        · exact later

theorem isName_of_at? {found : FileTree} (proper : tree.isProper = true) (reached : tree.at? names = some found) :
    ∀ name ∈ names, IsName name := by
  induction names generalizing tree with
  | nil => intro name member; cases member
  | cons first rest ih =>
    cases tree with
    | file => cases reached
    | directory entries =>
      rw [at?_cons] at reached
      obtain ⟨below, stands, onward⟩ := Option.bind_eq_some_iff.mp reached
      rw [isProper] at proper
      obtain ⟨named, inner⟩ := of_mem_areProper proper ((entry?_eq_some_iff proper).mp stands)
      intro name member
      rcases List.mem_cons.mp member with rfl | later
      · exact named
      · exact ih inner onward name later

theorem mem_leavesOf {entries : List (String × FileTree)} {leaf : List String × ByteArray} :
    leaf ∈ leavesOf entries ↔
      ∃ entry ∈ entries, ∃ inner ∈ entry.2.leaves, leaf = (entry.1 :: inner.1, inner.2) := by
  induction entries with
  | nil => simp only [leavesOf, List.not_mem_nil, false_and, exists_false]
  | cons entry rest ih =>
    have first : (∃ inner ∈ entry.2.leaves, (entry.1 :: inner.1, inner.2) = leaf) ↔
        ∃ inner ∈ entry.2.leaves, leaf = (entry.1 :: inner.1, inner.2) := by
      simp only [eq_comm]
    rw [leavesOf, List.mem_append, List.mem_map, first, ih]
    simp only [List.mem_cons, or_and_right, exists_or, exists_eq_left]

theorem mem_leaves (proper : tree.isProper = true) :
    (names, content) ∈ tree.leaves ↔ tree.at? names = some (.file content) := by
  induction names generalizing tree with
  | nil =>
    cases tree with
    | file held =>
      rw [leaves, at?_nil, List.mem_singleton, Prod.mk.injEq, Option.some.injEq, FileTree.file.injEq]
      exact ⟨fun same => same.2.symm, fun same => ⟨rfl, same.symm⟩⟩
    | directory entries =>
      rw [leaves, at?_nil, mem_leavesOf]
      constructor
      · rintro ⟨entry, -, inner, -, same⟩
        cases same
      · intro same
        cases same
  | cons name rest ih =>
    cases tree with
    | file held =>
      simp only [leaves, at?_file, List.mem_singleton, Prod.mk.injEq, reduceCtorEq, false_and]
    | directory entries =>
      rw [isProper] at proper
      rw [leaves, mem_leavesOf, at?_cons, Option.bind_eq_some_iff]
      constructor
      · rintro ⟨⟨first, below⟩, member, inner, leaf, same⟩
        obtain ⟨rfl, rfl, rfl⟩ : name = first ∧ rest = inner.1 ∧ content = inner.2 := by
          simpa only [Prod.mk.injEq, List.cons.injEq, and_assoc] using same
        exact ⟨below, (entry?_eq_some_iff proper).mpr member, (ih (of_mem_areProper proper member).2).mp leaf⟩
      · rintro ⟨below, stands, onward⟩
        have member := (entry?_eq_some_iff proper).mp stands
        exact ⟨_, member, _, (ih (of_mem_areProper proper member).2).mpr onward, rfl⟩

/-- The walk below a directory meets each of its files, under the path its names spell. -/
theorem mem_files {path spelled : String} (proper : tree.isProper = true) :
    (spelled, content) ∈ tree.files path ↔
      ∃ names, tree.at? names = some (.file content) ∧ spelled = names.foldl PathText.join path := by
  rw [files_eq_leaves, List.mem_map]
  constructor
  · rintro ⟨⟨names, held⟩, leaf, same⟩
    obtain ⟨rfl, rfl⟩ := Prod.mk.inj same
    exact ⟨names, (mem_leaves proper).mp leaf, rfl⟩
  · rintro ⟨names, reached, rfl⟩
    exact ⟨(names, content), (mem_leaves proper).mpr reached, rfl⟩

end TextTemplate.FileTree
