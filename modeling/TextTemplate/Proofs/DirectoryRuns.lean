import TextTemplate.Proofs.BundleFiles

/-! Generating all bundles below a directory. Each bundle is read from the tree as the bundles before it have
left it; but they have added programs only, which are no bundles and stand beside theirs, so what becomes of
a bundle can be told from the tree at the start. A bundle that fails leaves nothing behind; one that ends in an
overflow ends the run, and the bundles behind it are not generated. -/

namespace TextTemplate

namespace Command
open PathText

/-- A bundle file below a directory, by the path that a walk from `path` meets it under. -/
def BundleBelow (path : String) (directory : FileTree) (bundle : String) : Prop :=
  ∃ names content, directory.at? names = some (.file content) ∧ bundle = names.foldl join path ∧
    isBundlePath bundle = true

/-- A bundle file that parses, has its root, and whose program can be written. -/
def Succeeds (options : Options) (tree : FileTree) (bundle : String) : Prop :=
  ∃ content, tree.find? bundle = some (.file content) ∧ IsSound options content ∧
    tree.isWritable (programPath bundle) = true

def Crashes (options : Options) (tree : FileTree) (bundle : String) : Prop :=
  ∃ content, tree.find? bundle = some (.file content) ∧ Overflows options content

/-- The program of a bundle file, generated by itself. -/
def product? (options : Options) (tree : FileTree) (bundle : String) : Option Program :=
  if tree.isWritable (programPath bundle) then
    (tree.read? bundle).bind fun content => (generateContent options content).toOption.map Prod.snd
  else
    none

variable {request : Request} {options : Options} {base tree : FileTree} {path bundle : String}
  {entries : List (String × FileTree)}

theorem product?_eq_some_iff {program : Program} :
    product? options tree bundle = some program ↔
      tree.isWritable (programPath bundle) = true ∧ ∃ content built, tree.find? bundle = some (.file content) ∧
        generateContent options content = .ok built ∧ built.2 = program := by
  unfold product?
  split
  next writable =>
    rw [Option.bind_eq_some_iff]
    constructor
    · rintro ⟨content, held, made⟩
      obtain ⟨built, generated, same⟩ := Option.map_eq_some_iff.mp made
      cases result : generateContent options content with
      | error cause => rw [result] at generated; cases generated
      | ok other =>
        rw [result] at generated
        cases generated
        exact ⟨writable, content, built, FileTree.read?_eq_some_iff.mp held, result, same⟩
    · rintro ⟨-, content, built, found, generated, same⟩
      refine ⟨content, FileTree.read?_eq_some_iff.mpr found, ?_⟩
      rw [generated]
      exact congrArg some same
  next unwritable => exact ⟨nofun, fun all => absurd all.1 unwritable⟩

theorem product?_isSome_iff : (product? options tree bundle).isSome = true ↔ Succeeds options tree bundle := by
  rw [Option.isSome_iff_exists]
  constructor
  · rintro ⟨program, made⟩
    obtain ⟨writable, content, built, found, generated, -⟩ := product?_eq_some_iff.mp made
    exact ⟨content, found, exists_generated_iff.mp ⟨built, generated⟩, writable⟩
  · rintro ⟨content, found, sound, writable⟩
    obtain ⟨built, generated⟩ := exists_generated_iff.mpr sound
    exact ⟨built.2, product?_eq_some_iff.mpr ⟨writable, content, built, found, generated, rfl⟩⟩

theorem not_crashes_of_generated {content : ByteArray} {built : Bundle × Program}
    (found : tree.find? bundle = some (.file content)) (generated : generateContent options content = .ok built) :
    ¬Crashes options tree bundle := by
  rintro ⟨other, again, overflows⟩
  cases found.symm.trans again
  cases (generateContent_overflow_iff.mpr overflows).symm.trans generated

theorem Crashes.not_succeeds (crashes : Crashes options tree bundle) : ¬Succeeds options tree bundle := by
  rintro ⟨content, found, sound, -⟩
  obtain ⟨built, generated⟩ := exists_generated_iff.mpr sound
  exact not_crashes_of_generated found generated crashes

/-! The walk -/

theorem mem_bundlePaths (proper : (FileTree.directory entries).isProper = true) :
    bundle ∈ bundlePaths path (.directory entries) ↔ BundleBelow path (.directory entries) bundle := by
  rw [bundlePaths, List.mem_filter, List.mem_map]
  constructor
  · rintro ⟨⟨⟨spelled, content⟩, member, rfl⟩, suffix⟩
    obtain ⟨names, reached, same⟩ := (FileTree.mem_files proper).mp member
    exact ⟨names, content, reached, same, suffix⟩
  · rintro ⟨names, content, reached, same, suffix⟩
    exact ⟨⟨(bundle, content), (FileTree.mem_files proper).mpr ⟨names, reached, same⟩, rfl⟩, suffix⟩

theorem BundleBelow.isBundlePath {directory : FileTree} (below : BundleBelow path directory bundle) :
    Command.isBundlePath bundle = true := by
  obtain ⟨-, -, -, -, suffix⟩ := below
  exact suffix

section Below

variable {above : List String} (led : tree.directory? path = some above)
  (reached : tree.at? above = some (.directory entries)) (proper : (FileTree.directory entries).isProper = true)
include led reached proper

theorem place?_foldl_join {all : List String} {content : ByteArray}
    (inside : (FileTree.directory entries).at? all = some (.file content)) :
    tree.at? (above ++ all) = some (.file content) ∧ tree.place? (all.foldl join path) = some (above ++ all) := by
  have whole : tree.at? (above ++ all) = some (.file content) := by
    rw [FileTree.at?_append, reached]
    exact inside
  refine ⟨whole, ?_⟩
  rcases List.eq_nil_or_concat all with rfl | ⟨names, name, rfl⟩
  · cases inside
  have named := FileTree.isName_of_at? proper inside
  have clean := (named name (by simp)).1
  rw [List.concat_eq_append, ← List.append_assoc] at whole
  have stands : tree.isDirectoryAt (above ++ names) = true :=
    FileTree.isDirectoryAt_of_below (by rw [whole]; rfl) (List.cons_ne_nil name [])
  have held : tree.directory? (names.foldl join path) = some (above ++ names) :=
    FileTree.directory?_foldl_join led (fun other member => named other (by simp [member])) stands
  rw [List.concat_eq_append, List.foldl_append, List.foldl_cons, List.foldl_nil, FileTree.place?,
    FileTree.holder?_join clean, held, fileName_join clean, Option.map_some, List.append_assoc]

theorem BundleBelow.exists_holder (below : BundleBelow path (.directory entries) bundle) :
    ∃ names name content, bundle = join (names.foldl join path) name ∧ '/' ∉ name.toList ∧
      tree.holder? bundle = some (above ++ names) ∧ tree.find? bundle = some (.file content) := by
  obtain ⟨all, content, inside, rfl, suffix⟩ := below
  obtain ⟨whole, placed⟩ := place?_foldl_join led reached proper inside
  rcases List.eq_nil_or_concat all with rfl | ⟨names, name, rfl⟩
  · cases inside
  have clean := (FileTree.isName_of_at? proper inside name (by simp)).1
  obtain ⟨holder, held, same⟩ := Option.map_eq_some_iff.mp placed
  rw [List.concat_eq_append, ← List.append_assoc] at same
  obtain ⟨rfl, -⟩ := List.append_singleton_inj.mp same
  refine ⟨names, name, content, by simp, clean, held, ?_⟩
  exact FileTree.find?_of_place (isName_of_isBundlePath suffix) placed whole

theorem programPath_inj {other : String} (below : BundleBelow path (.directory entries) bundle)
    (beside : BundleBelow path (.directory entries) other)
    (same : tree.place? (programPath bundle) = tree.place? (programPath other)) :
    programPath bundle = programPath other := by
  obtain ⟨names, name, -, rfl, clean, held, -⟩ := below.exists_holder led reached proper
  obtain ⟨others, second, -, rfl, clear, within, -⟩ := beside.exists_holder led reached proper
  rw [place?_programPath, place?_programPath, held, within, fileName_join clean, fileName_join clear, Option.map_some,
    Option.map_some, Option.some.injEq] at same
  obtain ⟨front, last⟩ := List.append_singleton_inj.mp same
  obtain rfl := List.append_cancel_left front
  rw [programPath, programPath, sibling, sibling, fileName_join clean, fileName_join clear,
    last, directory_join clean clear]

end Below

/-! One bundle in a run -/

/-- What a tree keeps while programs are added to it. -/
structure Grown (base tree : FileTree) : Prop where
  directories : ∀ names, tree.isDirectoryAt names = base.isDirectoryAt names
  bundles : ∀ names name, bundleSuffix.toList <:+ String.toList name →
    tree.standingAt? (names ++ [name]) = base.standingAt? (names ++ [name])

namespace Grown

private theorem refl (base : FileTree) : Grown base base :=
  ⟨fun _ => rfl, fun _ _ _ => rfl⟩

private theorem isWritable (grown : Grown base tree) (path : String) : tree.isWritable path = base.isWritable path := by
  rw [Bool.eq_iff_iff, FileTree.isWritable_iff, FileTree.isWritable_iff, FileTree.place?_congr grown.directories]
  simp only [grown.directories]

theorem read? (grown : Grown base tree) (suffix : isBundlePath bundle = true) :
    tree.read? bundle = base.read? bundle := by
  have named := isName_of_isBundlePath suffix
  apply Option.ext
  intro content
  rw [FileTree.read?_eq_some_iff, FileTree.read?_eq_some_iff, FileTree.find?_eq named, FileTree.find?_eq named,
    FileTree.place?_congr grown.directories]
  cases placed : base.place? bundle with
  | none => rfl
  | some place =>
    obtain ⟨names, rfl, -⟩ := FileTree.place?_eq_some placed
    rw [Option.bind_some, Option.bind_some, FileTree.at?_file_iff, FileTree.at?_file_iff,
      grown.bundles names _ (isBundlePath_iff.mp suffix)]

private theorem find?_file (grown : Grown base tree) (suffix : isBundlePath bundle = true) {content : ByteArray}
    (found : base.find? bundle = some (.file content)) : tree.find? bundle = some (.file content) := by
  rw [← FileTree.read?_eq_some_iff, grown.read? suffix, FileTree.read?_eq_some_iff]
  exact found

private theorem product? (grown : Grown base tree) (suffix : isBundlePath bundle = true) :
    product? options tree bundle = Command.product? options base bundle := by
  unfold Command.product?
  rw [grown.isWritable, grown.read? suffix]

private theorem crashes_iff (grown : Grown base tree) (suffix : isBundlePath bundle = true) :
    Crashes options tree bundle ↔ Crashes options base bundle := by
  simp only [Crashes, ← FileTree.read?_eq_some_iff, grown.read? suffix]

/-- A program that is written where a bundle has its own is no bundle. -/
theorem write (grown : Grown base tree) {after : FileTree} {content : ByteArray}
    (wrote : tree.write? (programPath bundle) content = some after) : Grown base after where
  directories names := (FileTree.isDirectoryAt_write wrote names).trans (grown.directories names)
  bundles names name suffix := by
    obtain ⟨place, placed, -⟩ := FileTree.isWritable_iff.mp (FileTree.isWritable_of_write wrote)
    rw [FileTree.standingAt?_write wrote placed, if_neg, grown.bundles names name suffix]
    rintro rfl
    rw [place?_programPath] at placed
    obtain ⟨within, -, same⟩ := Option.map_eq_some_iff.mp placed
    obtain ⟨-, rfl⟩ := List.append_singleton_inj.mp same
    exact programName_not_bundle _ suffix

end Grown

theorem runFound_file {run : Run} {content : ByteArray} (found : run.tree.find? bundle = some (.file content)) :
    runFound request bundle run = runFile request bundle content run := by
  unfold runFound
  rw [found]

private theorem runFound_unread {run : Run} (unread : run.tree.read? bundle = none) :
    runFound request bundle run = (run, .failed (.bundle bundle .unreadable)) := by
  unfold runFound
  split
  next content found =>
    rw [FileTree.read?_eq_some_iff.mpr found] at unread
    cases unread
  next => rfl

/-- A bundle's turn in a run comes out as it would at the start: its program is added, or nothing is, and the run
goes on unless the turn ends in an overflow. -/
theorem runFound_cases {run : Run} (plain : request.json = false) (grown : Grown base run.tree)
    (suffix : isBundlePath bundle = true) :
    let ended := runFound request bundle run
    (∃ program, product? request.options base bundle = some program ∧ ended.2 = .done ∧
      run.tree.write? (programPath bundle) program.code.toUTF8 = some ended.1.tree ∧
      ended.1.written = run.written ++ [(programPath bundle, program.code)]) ∨
    (product? request.options base bundle = none ∧ ¬Crashes request.options base bundle ∧
      (∃ error, ended.2 = .failed error) ∧ ended.1.tree = run.tree ∧ ended.1.written = run.written) ∨
    (Crashes request.options base bundle ∧ ended = (run, .crashed)) := by
  intro ended
  rw [← grown.product? suffix, ← grown.crashes_iff suffix]
  cases made : product? request.options run.tree bundle with
  | some program =>
    obtain ⟨writable, content, built, found, generated, rfl⟩ := product?_eq_some_iff.mp made
    obtain ⟨after, wrote⟩ := FileTree.exists_write writable built.2.code.toUTF8
    have turn : ended = _ := (runFound_file found).trans (runFile_written run generated plain wrote)
    rw [turn]
    exact .inl ⟨built.2, rfl, rfl, wrote, rfl⟩
  | none =>
    refine .inr ?_
    cases held : run.tree.read? bundle with
    | none =>
      have turn : ended = _ := runFound_unread held
      rw [turn]
      refine .inl ⟨rfl, ?_, ⟨_, rfl⟩, rfl, rfl⟩
      rintro ⟨content, found, -⟩
      cases held.symm.trans (FileTree.read?_eq_some_iff.mpr found)
    | some content =>
      have found := FileTree.read?_eq_some_iff.mp held
      cases generated : generateContent request.options content with
      | error cause =>
        by_cases returned : cause = .overflow
        · subst returned
          have turn : ended = _ := (runFound_file found).trans (runFile_overflow generated bundle run)
          exact .inr ⟨⟨content, found, generateContent_overflow_iff.mp generated⟩, turn⟩
        · have turn : ended = _ := (runFound_file found).trans (runFile_error generated returned bundle run)
          rw [turn]
          refine .inl ⟨rfl, ?_, ⟨_, rfl⟩, rfl, rfl⟩
          rintro ⟨other, again, overflows⟩
          cases found.symm.trans again
          exact returned (Except.error.inj (generated.symm.trans (generateContent_overflow_iff.mpr overflows)))
      | ok built =>
        cases wrote : run.tree.write? (programPath bundle) built.2.code.toUTF8 with
        | none =>
          have turn : ended = _ := (runFound_file found).trans (runFile_unwritable run generated plain wrote)
          rw [turn]
          exact .inl ⟨rfl, not_crashes_of_generated found generated, ⟨_, rfl⟩, rfl, rfl⟩
        | some after =>
          have writable := FileTree.isWritable_of_write wrote
          rw [product?_eq_some_iff.mpr ⟨writable, content, built, found, generated, rfl⟩] at made
          cases made

/-! All bundles in a run -/

def delivered? (options : Options) (base : FileTree) (names : List String) (bundle : String) : Option ByteArray :=
  if base.place? (programPath bundle) = some names then
    (product? options base bundle).map fun program => program.code.toUTF8
  else
    none

theorem delivered?_eq_some_iff {names : List String} {content : ByteArray} :
    delivered? options base names bundle = some content ↔ base.place? (programPath bundle) = some names ∧
      ∃ program, product? options base bundle = some program ∧ program.code.toUTF8 = content := by
  rw [delivered?]
  split
  next placed => rw [Option.map_eq_some_iff, and_iff_right placed]
  next apart => exact ⟨nofun, fun both => absurd both.1 apart⟩

/-- What the turns of bundles leave behind, told from a tree that grew into the one the run started on: what was
written and now stands where. -/
structure Finished (request : Request) (base : FileTree) (turns : List String) (run last : Run) : Prop where
  grown : Grown base last.tree
  written : last.written = run.written ++ turns.filterMap fun bundle =>
    (product? request.options base bundle).map fun program => (programPath bundle, program.code)
  standing : ∀ names, last.tree.standingAt? names =
    ((turns.reverse.findSome? (delivered? request.options base names)).map .file).or
      (run.tree.standingAt? names)

private theorem Finished.nothing {run : Run} (grown : Grown base run.tree) : Finished request base [] run run where
  grown := grown
  written := (List.append_nil _).symm
  standing _ := rfl

/-- A bundle's program is what its turn leaves in its place, under all that the bundles after it leave. -/
theorem Finished.delivered {run next last : Run} {program : Program} {turns : List String}
    (grown : Grown base run.tree) (made : product? request.options base bundle = some program)
    (wrote : run.tree.write? (programPath bundle) program.code.toUTF8 = some next.tree)
    (recorded : next.written = run.written ++ [(programPath bundle, program.code)])
    (later : Finished request base turns next last) : Finished request base (bundle :: turns) run last where
  grown := later.grown
  written := by
    rw [later.written, recorded, List.filterMap_cons_some (by rw [made]; rfl), List.append_assoc]
    rfl
  standing names := by
    obtain ⟨place, placed, -⟩ := FileTree.isWritable_iff.mp (FileTree.isWritable_of_write wrote)
    rw [later.standing, List.reverse_cons, List.findSome?_append, List.findSome?_singleton,
      FileTree.standingAt?_write wrote placed, delivered?, ← FileTree.place?_congr grown.directories, placed, made]
    by_cases here : names = place
    · rw [if_pos here, if_pos (congrArg some here.symm)]
      cases turns.reverse.findSome? (delivered? request.options base names) <;> rfl
    · rw [if_neg here, if_neg (fun same => here (Option.some.inj same).symm), Option.or_none]

private theorem Finished.failing {run next last : Run} {turns : List String}
    (made : product? request.options base bundle = none) (kept : next.tree = run.tree)
    (recorded : next.written = run.written) (later : Finished request base turns next last) :
    Finished request base (bundle :: turns) run last where
  grown := later.grown
  written := by
    rw [later.written, recorded, List.filterMap_cons_none (by rw [made]; rfl)]
  standing names := by
    rw [later.standing, kept, List.reverse_cons, List.findSome?_append, List.findSome?_singleton, delivered?, made]
    simp

/-- The end of a run over bundles: each has its turn up to the first that ends in an overflow, and if there is none,
those that failed are counted. -/
structure Walked (request : Request) (base : FileTree) (bundles turns rest : List String) (run : Run)
    (ended : Run × Except Overflow Nat) : Prop where
  split : bundles = turns ++ rest
  calm : ∀ bundle ∈ turns, ¬Crashes request.options base bundle
  crashes : ∀ first ∈ rest.head?, Crashes request.options base first
  finished : Finished request base turns run ended.1
  result : match ended.2 with
    | .ok failed => rest = [] ∧ failed = turns.countP fun bundle => (product? request.options base bundle).isNone
    | .error _ => rest ≠ []

/-- One more turn in front, which fails or does not. -/
private theorem Walked.cons {later turns rest : List String} {run next : Run} {ended : Run × Except Overflow Nat}
    (walked : Walked request base later turns rest next ended) (calm : ¬Crashes request.options base bundle)
    (finished : Finished request base (bundle :: turns) run ended.1) :
    Walked request base (bundle :: later) (bundle :: turns) rest run
      (ended.1, ended.2.map (· + if (product? request.options base bundle).isNone then 1 else 0)) where
  split := congrArg (bundle :: ·) walked.split
  calm := List.forall_mem_cons.mpr ⟨calm, walked.calm⟩
  crashes := walked.crashes
  finished := finished
  result := by
    obtain ⟨last, result⟩ := ended
    have told := walked.result
    cases result with
    | error overflow => exact told
    | ok failed =>
      obtain ⟨all, counted⟩ := told
      refine ⟨all, ?_⟩
      rw [List.countP_cons, ← counted]

private theorem runFiles_walked (plain : request.json = false) {bundles : List String} {run : Run}
    (grown : Grown base run.tree) (suffixes : ∀ bundle ∈ bundles, isBundlePath bundle = true) :
    ∃ turns rest, Walked request base bundles turns rest run (runFiles request bundles run) := by
  induction bundles generalizing run with
  | nil => exact ⟨[], [], rfl, nofun, nofun, .nothing grown, rfl, rfl⟩
  | cons bundle later ih =>
    have others bundle member := suffixes bundle (List.mem_cons_of_mem _ member)
    have turn := runFound_cases plain grown (suffixes bundle List.mem_cons_self)
    rw [runFiles]
    generalize runFound request bundle run = ended at turn ⊢
    obtain ⟨next, ending⟩ := ended
    rcases turn with ⟨program, made, rfl, wrote, recorded⟩ | ⟨made, calm, ⟨error, rfl⟩, kept, recorded⟩ |
      ⟨crashes, same⟩
    · obtain ⟨turns, rest, walked⟩ := ih (grown.write wrote) others
      have calm : ¬Crashes request.options base bundle := by
        obtain ⟨-, content, built, found, generated, -⟩ := product?_eq_some_iff.mp made
        exact not_crashes_of_generated found generated
      have onward := walked.cons calm (.delivered grown made wrote recorded walked.finished)
      rw [made] at onward
      refine ⟨bundle :: turns, rest, ?_⟩
      dsimp only
      generalize runFiles request later next = ended at onward ⊢
      obtain ⟨last, result⟩ := ended
      cases result <;> exact onward
    · have kept : (next.tell [.failure error]).tree = run.tree := kept
      obtain ⟨turns, rest, walked⟩ := ih (kept ▸ grown) others
      have onward := walked.cons calm (.failing made kept recorded walked.finished)
      rw [made] at onward
      exact ⟨bundle :: turns, rest, onward⟩
    · cases same
      exact ⟨[], bundle :: later, rfl, nofun, fun first head => Option.some.inj head ▸ crashes, .nothing grown,
        List.cons_ne_nil _ _⟩

private theorem countP_failed_eq_zero_iff {turns : List String} :
    (turns.countP fun bundle => (product? options base bundle).isNone) = 0 ↔
      ∀ bundle ∈ turns, Succeeds options base bundle := by
  rw [List.countP_eq_zero]
  simp only [Bool.not_eq_true, Option.isNone_eq_false_iff, product?_isSome_iff]

section Finished

variable {bundles : List String} {run last : Run} (finished : Finished request base bundles run last)
include finished

/-- A program stands in its place at the end, unless a later bundle has the same place. -/
theorem Finished.find?_last {front back : List String} {program : Program} (listed : bundles = front ++ bundle :: back)
    (made : product? request.options base bundle = some program)
    (only : ∀ other ∈ back, base.place? (programPath other) = base.place? (programPath bundle) → other = bundle) :
    last.tree.find? (programPath bundle) = some (.file program.code.toUTF8) := by
  obtain ⟨place, placed, -⟩ := FileTree.isWritable_iff.mp (product?_eq_some_iff.mp made).1
  have own : delivered? request.options base place bundle = some program.code.toUTF8 :=
    delivered?_eq_some_iff.mpr ⟨placed, program, made, rfl⟩
  have named : FileTree.IsName (fileName (programPath bundle)) :=
    fileName_programPath bundle ▸ programName_isName (fileName_clean bundle)
  rw [FileTree.find?_eq named, FileTree.place?_congr finished.grown.directories, placed, Option.bind_some,
    FileTree.at?_file_iff, finished.standing, listed, List.reverse_append, List.reverse_cons, List.append_assoc,
    List.findSome?_append]
  cases later : back.reverse.findSome? (delivered? request.options base place) with
  | none =>
    rw [Option.none_or, List.singleton_append, List.findSome?_cons, own]
    rfl
  | some content =>
    obtain ⟨other, member, gave⟩ := List.exists_of_findSome?_eq_some later
    have same := only other (List.mem_reverse.mp member) ((delivered?_eq_some_iff.mp gave).1.trans placed.symm)
    rw [same, own] at gave
    cases gave
    rfl

private theorem Finished.find?_program {program : Program} (member : bundle ∈ bundles)
    (made : product? request.options base bundle = some program)
    (only : ∀ other ∈ bundles, base.place? (programPath other) = base.place? (programPath bundle) → other = bundle) :
    last.tree.find? (programPath bundle) = some (.file program.code.toUTF8) := by
  obtain ⟨front, back, rfl⟩ := List.append_of_mem member
  refine finished.find?_last rfl made fun other later => only other ?_
  exact List.mem_append_right _ (List.mem_cons_of_mem _ later)

/-- What stands in another way at the end is the program of a bundle. -/
theorem Finished.exists_of_changed {names : List String}
    (changed : last.tree.standingAt? names ≠ run.tree.standingAt? names) :
    ∃ bundle ∈ bundles, Succeeds request.options base bundle ∧ base.place? (programPath bundle) = some names := by
  rw [finished.standing] at changed
  cases final : bundles.reverse.findSome? (delivered? request.options base names) with
  | none =>
    rw [final] at changed
    exact absurd rfl changed
  | some content =>
    obtain ⟨bundle, listed, gave⟩ := List.exists_of_findSome?_eq_some final
    obtain ⟨placed, program, made, -⟩ := delivered?_eq_some_iff.mp gave
    exact ⟨bundle, List.mem_reverse.mp listed, product?_isSome_iff.mp (Option.isSome_iff_exists.mpr ⟨program, made⟩),
      placed⟩

end Finished

/-! A directory -/

theorem run_of_directory (request : Request) (filed : request.fromInput = false)
    (named : request.path? = some path) (found : tree.find? path = some (.directory entries)) (input : ByteArray) :
    run request tree input = conclude (runDirectory request path (.directory entries) { tree }) := by
  unfold run runPath
  simp only [filed, named, found]
  rfl

theorem run_directory (request : Request) (plain : request.json = false) (filed : request.fromInput = false)
    (named : request.path? = some path) (found : tree.find? path = some (.directory entries)) (input : ByteArray) :
    let bundles := bundlePaths path (.directory entries)
    let ended := run request tree input
    ∃ turns rest walk, Walked request tree bundles turns rest { tree } walk ∧
      ended.1.tree = walk.1.tree ∧ ended.1.written = walk.1.written ∧
      (ended.2 = .success ↔ bundles ≠ [] ∧ ∀ bundle ∈ bundles, Succeeds request.options tree bundle) ∧
      (ended.2 = .crash ↔ rest ≠ []) := by
  intro bundles ended
  have suffixes : ∀ bundle ∈ bundles, isBundlePath bundle = true :=
    fun bundle member => (List.mem_filter.mp member).2
  obtain ⟨turns, rest, walked⟩ : ∃ turns rest,
      Walked request tree bundles turns rest { tree } (runFiles request bundles { tree }) :=
    runFiles_walked plain (.refl tree) suffixes
  have run : ended = _ := run_of_directory request filed named found input
  refine ⟨turns, rest, _, walked, ?_⟩
  obtain ⟨split, -, crashes, -, result⟩ := walked
  by_cases empty : bundles = []
  · have none : rest = [] := (List.append_eq_nil_iff.mp (split.symm.trans empty)).2
    rw [run, runDirectory, if_pos (List.isEmpty_iff.mpr empty), empty]
    exact ⟨rfl, rfl, iff_of_false nofun fun both => both.1 rfl, iff_of_false nofun fun some => some none⟩
  · rw [run, runDirectory, if_neg (fun none => empty (List.isEmpty_iff.mp none))]
    generalize runFiles request bundles { tree } = walk at result
    obtain ⟨last, result?⟩ := walk
    cases result? with
    | error overflow =>
      obtain ⟨first, later, rfl⟩ := List.exists_cons_of_ne_nil result
      have member : first ∈ bundles := split ▸ List.mem_append_right _ List.mem_cons_self
      refine ⟨rfl, rfl, iff_of_false nofun fun both => ?_, iff_of_true rfl result⟩
      exact (crashes first rfl).not_succeeds (both.2 first member)
    | ok failed =>
      obtain ⟨rfl, counted⟩ := result
      have all : failed = 0 ↔ ∀ bundle ∈ bundles, Succeeds request.options tree bundle := by
        rw [counted, countP_failed_eq_zero_iff, split, List.append_nil]
      dsimp only
      split
      next clean => exact ⟨rfl, rfl, iff_of_true rfl ⟨empty, all.mp clean⟩, iff_of_false nofun fun some => some rfl⟩
      next unclean =>
        exact ⟨rfl, rfl, iff_of_false nofun fun both => unclean (all.mpr both.2),
          iff_of_false nofun fun some => some rfl⟩

theorem run_directory_calm (request : Request) (plain : request.json = false) (filed : request.fromInput = false)
    (named : request.path? = some path) (found : tree.find? path = some (.directory entries)) (input : ByteArray)
    (succeeds : ∀ bundle ∈ bundlePaths path (.directory entries), Succeeds request.options tree bundle) :
    let bundles := bundlePaths path (.directory entries)
    let ended := run request tree input
    ∃ last, Finished request tree bundles { tree } last ∧ ended.1.tree = last.tree ∧
      ended.1.written = last.written ∧ (ended.2 = .success ↔ bundles ≠ []) := by
  intro bundles ended
  obtain ⟨turns, rest, walk, ⟨split, -, crashes, finished, -⟩, kept, recorded, succeeded, -⟩ :=
    run_directory request plain filed named found input
  have all : bundles = turns := by
    cases rest with
    | nil => exact split.trans (List.append_nil turns)
    | cons first later =>
      exact absurd (succeeds first (split ▸ List.mem_append_right _ List.mem_cons_self))
        (crashes first rfl).not_succeeds
  exact ⟨walk.1, all ▸ finished, kept, recorded, succeeded.trans (and_iff_left succeeds)⟩

private theorem run_alone (request : Request) {content : ByteArray} (plain : request.json = false)
    (filed : request.fromInput = false) (named : request.path? = some bundle)
    (suffix : isBundlePath bundle = true) (found : tree.find? bundle = some (.file content)) (input : ByteArray) :
    ((run request tree input).2 = .success ↔ Succeeds request.options tree bundle) ∧
      ((run request tree input).2 = .crash ↔ Crashes request.options tree bundle) := by
  cases generated : generateContent request.options content with
  | error cause =>
    have unsound : ¬Succeeds request.options tree bundle := by
      rintro ⟨held, stands, sound, -⟩
      cases found.symm.trans stands
      obtain ⟨built, made⟩ := exists_generated_iff.mpr sound
      cases generated.symm.trans made
    by_cases returned : cause = .overflow
    · subst returned
      rw [run_file_overflow request filed named suffix found input generated]
      exact ⟨iff_of_false nofun unsound, iff_of_true rfl ⟨content, found, generateContent_overflow_iff.mp generated⟩⟩
    · rw [run_file_error request filed named suffix found input generated returned]
      refine ⟨iff_of_false nofun unsound, iff_of_false nofun ?_⟩
      rintro ⟨held, stands, overflows⟩
      cases found.symm.trans stands
      exact returned (Except.error.inj (generated.symm.trans (generateContent_overflow_iff.mpr overflows)))
  | ok built =>
    have calm := not_crashes_of_generated found generated
    cases wrote : tree.write? (programPath bundle) built.2.code.toUTF8 with
    | none =>
      rw [run_file_unwritable request filed named suffix found input generated plain wrote]
      refine ⟨iff_of_false nofun ?_, iff_of_false nofun calm⟩
      rintro ⟨-, -, -, writable⟩
      obtain ⟨after, written⟩ := FileTree.exists_write writable built.2.code.toUTF8
      cases wrote.symm.trans written
    | some after =>
      rw [run_file_written request filed named suffix found input generated plain wrote]
      exact ⟨iff_of_true rfl
        ⟨content, found, exists_generated_iff.mp ⟨built, generated⟩, FileTree.isWritable_of_write wrote⟩,
        iff_of_false nofun calm⟩

/-- While programs are added, the bundles below a directory stay the same. -/
theorem Grown.bundlesBelow {after : FileTree} (grown : Grown tree after)
    (found : tree.find? path = some (.directory entries)) :
    ∃ others, after.find? path = some (.directory others) ∧
      ∀ bundle, BundleBelow path (.directory others) bundle ↔ BundleBelow path (.directory entries) bundle := by
  obtain ⟨above, led, reached⟩ := FileTree.exists_directory? found
  have still : after.directory? path = some above := (FileTree.directory?_congr grown.directories path).trans led
  have here : after.isDirectoryAt above = true := by
    rw [grown.directories, FileTree.isDirectoryAt, reached]
    rfl
  obtain ⟨others, stands⟩ := FileTree.exists_entries here
  refine ⟨others, (FileTree.find?_of_directory? still).trans stands, fun bundle => ?_⟩
  have same (all : List String) (suffix : isBundlePath (all.foldl join path) = true) (content : ByteArray) :
      (FileTree.directory others).at? all = some (.file content) ↔
        (FileTree.directory entries).at? all = some (.file content) := by
    rcases List.eq_nil_or_concat all with rfl | ⟨names, name, rfl⟩
    · exact iff_of_false (fun inside => by cases inside) (fun inside => by cases inside)
    · rw [List.concat_eq_append, List.foldl_append] at suffix
      have ending := (isBundlePath_iff.mp suffix).trans (fileName_join_suffix _ name)
      have whole := grown.bundles (above ++ names) name ending
      rw [List.append_assoc, FileTree.standingAt?, FileTree.standingAt?, FileTree.at?_append, FileTree.at?_append,
        stands, reached, Option.bind_some, Option.bind_some] at whole
      rw [List.concat_eq_append, ← FileTree.map_standing_file, whole, FileTree.map_standing_file]
  constructor
  · rintro ⟨all, content, inside, rfl, suffix⟩
    exact ⟨all, content, (same all suffix content).mp inside, rfl, suffix⟩
  · rintro ⟨all, content, inside, rfl, suffix⟩
    exact ⟨all, content, (same all suffix content).mpr inside, rfl, suffix⟩

/-- In a directory where the programs of different bundles have different paths, each bundle has its turn, up to
the first that by itself ends in an overflow, which ends the run. Each that has its turn is generated as if it were
alone: the program of one that succeeds stands in its place at the end, and nothing else has changed. The command
succeeds if there is a bundle and every one succeeds. -/
theorem directory_run_isolated (request : Request) (plain : request.json = false)
    (found : tree.find? path = some (.directory entries)) (proper : (FileTree.directory entries).isProper = true)
    (apart : ∀ bundle other, BundleBelow path (.directory entries) bundle →
      BundleBelow path (.directory entries) other → programPath bundle = programPath other → bundle = other)
    (input : ByteArray) :
    let ended := run (request.ofPath path) tree input
    let alone := fun bundle => run (request.ofPath bundle) tree input
    ∃ turns rest, bundlePaths path (.directory entries) = turns ++ rest ∧
      (∀ bundle, bundle ∈ turns ++ rest ↔ BundleBelow path (.directory entries) bundle) ∧
      (∀ bundle ∈ turns, (alone bundle).2 ≠ .crash) ∧ (∀ first ∈ rest.head?, (alone first).2 = .crash) ∧
      (ended.2 = .crash ↔ rest ≠ []) ∧
      (ended.2 = .success ↔ (∃ bundle, BundleBelow path (.directory entries) bundle) ∧
        ∀ bundle, BundleBelow path (.directory entries) bundle → Succeeds request.options tree bundle) ∧
      (∀ bundle, BundleBelow path (.directory entries) bundle →
        ((alone bundle).2 = .success ↔ Succeeds request.options tree bundle) ∧
        ((alone bundle).2 = .crash ↔ Crashes request.options tree bundle) ∧
        ended.1.tree.find? bundle = tree.find? bundle) ∧
      (∀ bundle ∈ turns, (alone bundle).2 = .success →
        ∃ content built, tree.find? bundle = some (.file content) ∧
          generateContent request.options content = .ok built ∧
          ended.1.tree.find? (programPath bundle) = some (.file built.2.code.toUTF8)) ∧
      (∀ names, ended.1.tree.standingAt? names ≠ tree.standingAt? names →
        ∃ bundle ∈ turns, (alone bundle).2 = .success ∧ tree.place? (programPath bundle) = some names) ∧
      ended.1.written = turns.filterMap (fun bundle =>
        (product? request.options tree bundle).map fun program => (programPath bundle, program.code)) ∧
      ∃ others, ended.1.tree.find? path = some (.directory others) ∧
        ∀ bundle, BundleBelow path (.directory others) bundle ↔ BundleBelow path (.directory entries) bundle := by
  intro ended alone
  obtain ⟨above, led, reached⟩ := FileTree.exists_directory? found
  obtain ⟨turns, rest, walk, ⟨split, calm, crashes, finished, -⟩, kept, recorded, succeeded, crashed⟩ :=
    run_directory (request.ofPath path) plain rfl rfl found input
  have listed {bundle : String} : bundle ∈ bundlePaths path (.directory entries) ↔
      BundleBelow path (.directory entries) bundle := mem_bundlePaths proper
  have begun {bundle : String} (member : bundle ∈ turns) : BundleBelow path (.directory entries) bundle :=
    listed.mp (split ▸ List.mem_append_left _ member)
  have single {bundle : String} (below : BundleBelow path (.directory entries) bundle) :
      ((alone bundle).2 = .success ↔ Succeeds request.options tree bundle) ∧
        ((alone bundle).2 = .crash ↔ Crashes request.options tree bundle) := by
    obtain ⟨-, -, content, -, -, -, stands⟩ := below.exists_holder led reached proper
    exact run_alone (request.ofPath bundle) plain rfl rfl below.isBundlePath stands input
  refine ⟨turns, rest, split, fun bundle => split ▸ listed, fun bundle member => ?_, fun first head => ?_, crashed, ?_,
    fun bundle below => ⟨(single below).1, (single below).2, ?_⟩, fun bundle member well => ?_, fun names changed => ?_,
    recorded.trans finished.written, ?_⟩
  · exact fun crash => calm bundle member ((single (begun member)).2.mp crash)
  · have below := listed.mp (split ▸ List.mem_append_right turns (List.mem_of_mem_head? head))
    exact (single below).2.mpr (crashes first head)
  · rw [succeeded, ← List.length_pos_iff, List.length_pos_iff_exists_mem]
    simp only [listed]
    rfl
  · obtain ⟨-, -, content, -, -, -, stands⟩ := below.exists_holder led reached proper
    rw [kept, stands, finished.grown.find?_file below.isBundlePath stands]
  · have below := begun member
    obtain ⟨program, made⟩ := Option.isSome_iff_exists.mp (product?_isSome_iff.mpr ((single below).1.mp well))
    obtain ⟨writable, content, built, stands, generated, rfl⟩ := product?_eq_some_iff.mp made
    refine ⟨content, built, stands, generated, ?_⟩
    rw [kept]
    refine finished.find?_program member made fun other listing shared => ?_
    have beside := begun listing
    exact apart other bundle beside below (programPath_inj led reached proper beside below shared)
  · rw [kept] at changed
    obtain ⟨bundle, member, well, placed⟩ := finished.exists_of_changed changed
    exact ⟨bundle, member, (single (begun member)).1.mpr well, placed⟩
  · rw [kept]
    exact finished.grown.bundlesBelow found

def mixedEntries : List (String × FileTree) :=
  [("a.bundle.json", .file ⟨#[255]⟩),
    ("deep", .directory [(".bundle.json", .file pageText.toUTF8), ("c.bundle.json", .file pageText.toUTF8),
      ("c.cs", .directory [])]),
    ("far.bundle.json", .file Bundle.farText.toUTF8)]

def mixedSite : FileTree := .directory [("site", .directory mixedEntries)]

private theorem mixed_places :
    (mixedSite.place? "site" = some ["site"] ∧
      mixedSite.place? "site/a.bundle.json" = some ["site", "a.bundle.json"] ∧
      mixedSite.place? "site/deep/.bundle.json" = some ["site", "deep", ".bundle.json"] ∧
      mixedSite.place? "site/far.bundle.json" = some ["site", "far.bundle.json"]) ∧
    mixedSite.isWritable (programPath "site/deep/.bundle.json") = true ∧
    bundlePaths "site" (.directory mixedEntries) =
      ["site/a.bundle.json", "site/deep/.bundle.json", "site/deep/c.bundle.json", "site/far.bundle.json"] := by
  decide +kernel

private theorem mixedSite_find? : mixedSite.find? "site" = some (.directory mixedEntries) ∧
    mixedSite.find? "site/a.bundle.json" = some (.file ⟨#[255]⟩) ∧
    mixedSite.find? "site/deep/.bundle.json" = some (.file pageText.toUTF8) ∧
    mixedSite.find? "site/far.bundle.json" = some (.file Bundle.farText.toUTF8) := by
  obtain ⟨⟨directory, unread, deep, far⟩, -⟩ := mixed_places
  exact ⟨FileTree.find?_of_place (by decide) directory rfl, FileTree.find?_of_place (by decide) unread rfl,
    FileTree.find?_of_place (by decide) deep rfl, FileTree.find?_of_place (by decide) far rfl⟩

private theorem mixed_fates : ¬Crashes {} mixedSite "site/a.bundle.json" ∧
    Succeeds {} mixedSite "site/deep/.bundle.json" ∧ Crashes {} mixedSite "site/far.bundle.json" := by
  obtain ⟨-, writable, -⟩ := mixed_places
  obtain ⟨-, unread, deep, far⟩ := mixedSite_find?
  refine ⟨?_, ⟨_, deep, page_isSound {}, writable⟩, ⟨_, far, generateContent_overflow_iff.mp far_content_overflows⟩⟩
  rintro ⟨content, found, bundle, ⟨text, decoded, -⟩, -⟩
  have nothing : String.fromUTF8? ⟨#[255]⟩ = none := by decide
  cases unread.symm.trans found
  cases nothing.symm.trans decoded

theorem directory_run_isolated_mixed :
    mixedSite.find? "site" = some (.directory mixedEntries) ∧ (FileTree.directory mixedEntries).isProper = true ∧
      BundleBelow "site" (.directory mixedEntries) "site/a.bundle.json" ∧
      BundleBelow "site" (.directory mixedEntries) "site/deep/.bundle.json" ∧
      (∀ bundle ∈ bundlePaths "site" (.directory mixedEntries),
        ∀ other ∈ bundlePaths "site" (.directory mixedEntries),
          programPath bundle = programPath other → bundle = other) ∧
      let ended := run (pageRequest.ofPath "site") mixedSite .empty
      ended.2 = .crash ∧
        (∃ content built, mixedSite.find? "site/deep/.bundle.json" = some (.file content) ∧
          generateContent {} content = .ok built ∧
          ended.1.tree.find? (programPath "site/deep/.bundle.json") = some (.file built.2.code.toUTF8)) ∧
        ended.1.tree.find? "site/a.bundle.json" = mixedSite.find? "site/a.bundle.json" := by
  obtain ⟨-, -, paths⟩ := mixed_places
  obtain ⟨directory, -⟩ := mixedSite_find?
  obtain ⟨fails, succeeds, crashes⟩ := mixed_fates
  have proper : (FileTree.directory mixedEntries).isProper = true := by decide
  have listed (bundle : String) : bundle ∈ bundlePaths "site" (.directory mixedEntries) ↔
      BundleBelow "site" (.directory mixedEntries) bundle := mem_bundlePaths proper
  have failing : BundleBelow "site" (.directory mixedEntries) "site/a.bundle.json" :=
    (listed _).mp (by rw [paths]; decide)
  have well : BundleBelow "site" (.directory mixedEntries) "site/deep/.bundle.json" :=
    (listed _).mp (by rw [paths]; decide)
  have far : BundleBelow "site" (.directory mixedEntries) "site/far.bundle.json" :=
    (listed _).mp (by rw [paths]; decide)
  have apart : ∀ bundle ∈ bundlePaths "site" (.directory mixedEntries),
      ∀ other ∈ bundlePaths "site" (.directory mixedEntries),
        programPath bundle = programPath other → bundle = other := by
    rw [paths]
    decide
  obtain ⟨turns, rest, split, -, calm, crash, crashed, -, each, program, -⟩ :=
    directory_run_isolated pageRequest rfl directory proper
      (fun bundle other below beside => apart bundle ((listed _).mpr below) other ((listed _).mpr beside)) .empty
  have crash (first : String) (head : rest.head? = some first)
      (below : BundleBelow "site" (.directory mixedEntries) first) : Crashes {} mixedSite first :=
    (each first below).2.1.mp (crash first head)
  rw [paths] at split
  have turn : "site/deep/.bundle.json" ∈ turns := by
    rcases turns with _ | ⟨first, _ | ⟨second, later⟩⟩
    · cases split
      exact absurd (crash _ rfl failing) fails
    · cases split
      exact absurd succeeds (crash _ rfl well).not_succeeds
    · simp only [List.cons_append, List.cons.injEq] at split
      exact split.2.1 ▸ List.mem_cons_of_mem _ List.mem_cons_self
  have stopped : rest ≠ [] := by
    rintro rfl
    refine calm "site/far.bundle.json" ?_ ((each _ far).2.1.mpr crashes)
    rw [← List.append_nil turns, ← split]
    decide
  exact ⟨directory, proper, failing, well, apart, crashed.mpr stopped,
    program _ turn ((each _ well).1.mpr succeeds), (each _ failing).2.2⟩

def strandedEntries : List (String × FileTree) :=
  [("far.bundle.json", .file Bundle.farText.toUTF8), ("page.bundle.json", .file pageText.toUTF8)]

def strandedSite : FileTree := .directory [("site", .directory strandedEntries)]

private theorem stranded_places :
    (strandedSite.place? "site" = some ["site"] ∧
      strandedSite.place? "site/far.bundle.json" = some ["site", "far.bundle.json"] ∧
      strandedSite.place? "site/page.bundle.json" = some ["site", "page.bundle.json"] ∧
      strandedSite.place? "site/page.cs" = some ["site", "page.cs"]) ∧
    strandedSite.isWritable (programPath "site/page.bundle.json") = true ∧
    bundlePaths "site" (.directory strandedEntries) = ["site/far.bundle.json", "site/page.bundle.json"] := by
  decide +kernel

private theorem strandedSite_find? : strandedSite.find? "site" = some (.directory strandedEntries) ∧
    strandedSite.find? "site/far.bundle.json" = some (.file Bundle.farText.toUTF8) ∧
    strandedSite.find? "site/page.bundle.json" = some (.file pageText.toUTF8) ∧
    strandedSite.find? "site/page.cs" = none := by
  obtain ⟨⟨directory, far, page, program⟩, -⟩ := stranded_places
  exact ⟨FileTree.find?_of_place (by decide) directory rfl, FileTree.find?_of_place (by decide) far rfl,
    FileTree.find?_of_place (by decide) page rfl, FileTree.find?_of_place (by decide) program rfl⟩

/-- The two bundles of a directory have different programs, and one succeeds by itself. But the run ends at the
other with neither of its exit codes, and there is no program. -/
theorem directory_run_stranded :
    strandedSite.find? "site" = some (.directory strandedEntries) ∧
      (FileTree.directory strandedEntries).isProper = true ∧
      bundlePaths "site" (.directory strandedEntries) = ["site/far.bundle.json", "site/page.bundle.json"] ∧
      programPath "site/far.bundle.json" ≠ programPath "site/page.bundle.json" ∧
      Succeeds {} strandedSite "site/page.bundle.json" ∧
      let ended := run (pageRequest.ofPath "site") strandedSite .empty
      (ended.2.code ≠ 0 ∧ ended.2.code ≠ 1) ∧
        ended.1.tree.find? (programPath "site/page.bundle.json") = none := by
  obtain ⟨-, writable, paths⟩ := stranded_places
  obtain ⟨directory, far, page, vacant⟩ := strandedSite_find?
  have ended : run (pageRequest.ofPath "site") strandedSite .empty = ({ tree := strandedSite }, .crash) := by
    have turn : runFound (pageRequest.ofPath "site") "site/far.bundle.json" { tree := strandedSite } =
        ({ tree := strandedSite }, .crashed) := by
      have held : ({ tree := strandedSite } : Run).tree.find? "site/far.bundle.json" =
          some (.file Bundle.farText.toUTF8) := far
      rw [runFound_file held, runFile_overflow]
      exact far_content_overflows
    rw [run_of_directory (pageRequest.ofPath "site") rfl rfl directory, runDirectory, paths, runFiles, turn]
    rfl
  have program : programPath "site/page.bundle.json" = "site/page.cs" := by decide
  refine ⟨directory, by decide, paths, by decide, ⟨_, page, page_isSound {}, writable⟩, ?_⟩
  rw [ended, program]
  exact ⟨by decide, vacant⟩

end Command

end TextTemplate
