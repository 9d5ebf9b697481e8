import TextTemplate.Proofs.DirectoryRuns

/-! Bundles of one directory that have one program. A bundle whose name is nothing but the suffix gets the
program of a bundle that is called after the fallback; no other two bundles share a path. Where both are
found, the walk comes to the nameless one first, and its program is replaced by the other's. Every other
program is still there when the run is over, under the path that was told for it. -/

namespace TextTemplate

namespace FileTree

mutual

def isOrdered : FileTree → Bool
  | .file _ => true
  | .directory entries => areOrdered entries

def areOrdered : List (String × FileTree) → Bool
  | [] => true
  | entry :: rest => (rest.all fun other => decide (entry.1 < other.1)) && entry.2.isOrdered && areOrdered rest

end

private theorem areOrdered_cons {name : String} {below : FileTree} {rest : List (String × FileTree)} :
    areOrdered ((name, below) :: rest) = true ↔
      (∀ other ∈ rest, name < other.1) ∧ below.isOrdered = true ∧ areOrdered rest = true := by
  simp only [areOrdered, Bool.and_eq_true, List.all_eq_true, decide_eq_true_eq, and_assoc]

mutual

/-- Files are listed in the order of the names that lead to them. -/
theorem leaves_ordered :
    ∀ tree : FileTree, tree.isOrdered = true → tree.leaves.Pairwise fun first second => first.1 < second.1
  | .file content, _ => by
    rw [leaves]
    exact List.pairwise_singleton _ _
  | .directory entries, ordered => by
    rw [isOrdered] at ordered
    rw [leaves]
    exact leavesOf_ordered entries ordered

theorem leavesOf_ordered :
    ∀ entries : List (String × FileTree), areOrdered entries = true →
      (leavesOf entries).Pairwise fun first second => first.1 < second.1
  | [], _ => by
    rw [leavesOf]
    exact .nil
  | (name, below) :: rest, ordered => by
    obtain ⟨first, inner, others⟩ := areOrdered_cons.mp ordered
    rw [leavesOf]
    apply List.pairwise_append.mpr
    refine ⟨?_, leavesOf_ordered rest others, ?_⟩
    · apply List.pairwise_map.mpr
      exact (leaves_ordered below inner).imp fun less => List.cons_lt_cons_iff.mpr (.inr ⟨rfl, less⟩)
    · intro leaf here later there
      obtain ⟨within, -, rfl⟩ := List.mem_map.mp here
      obtain ⟨entry, member, deeper, -, rfl⟩ := mem_leavesOf.mp there
      exact List.cons_lt_cons_iff.mpr (.inl (first entry member))

end

end FileTree

namespace Command
open PathText

/-- The name of the bundle that a nameless one is called after. -/
def fallbackBundle : String := "Template.bundle.json"

/-- Two bundles of one directory that have one program: one has no name in front of the suffix, the other has
the name that stands in for none. -/
def Rivals (nameless named : String) : Prop :=
  ∃ directory, nameless = join directory bundleSuffix ∧ named = join directory fallbackBundle

private theorem programName_append (stem : String) :
    programName (stem ++ bundleSuffix) = (if stem = "" then "Template" else stem) ++ ".cs" := by
  have front :
      (stem ++ bundleSuffix).toList.take ((stem ++ bundleSuffix).length - bundleSuffix.length) = stem.toList := by
    rw [String.length_append, Nat.add_sub_cancel_right, String.toList_append, ← String.length_toList, List.take_left]
  rw [programName, front, String.ofList_toList]
  simp only [String.isEmpty_iff]

private theorem exists_stem {name : String} (bundle : bundleSuffix.toList <:+ name.toList) :
    ∃ stem, name = stem ++ bundleSuffix := by
  obtain ⟨front, spelled⟩ := bundle
  refine ⟨String.ofList front, String.toList_inj.mp ?_⟩
  rw [String.toList_append, String.toList_ofList, spelled]

/-- Two bundles whose programs have one name are the same, or one of them has no name of its own. -/
theorem programName_eq_iff {first second : String} (bundle : bundleSuffix.toList <:+ first.toList)
    (other : bundleSuffix.toList <:+ second.toList) :
    programName first = programName second ↔ first = second ∨ (first = bundleSuffix ∧ second = fallbackBundle) ∨
      (first = fallbackBundle ∧ second = bundleSuffix) := by
  obtain ⟨stem, rfl⟩ := exists_stem bundle
  obtain ⟨rest, rfl⟩ := exists_stem other
  have nameless (stem : String) : stem ++ bundleSuffix = bundleSuffix ↔ stem = "" := String.append_eq_right_iff
  have named (stem : String) : stem ++ bundleSuffix = fallbackBundle ↔ stem = "Template" := by
    have spelled : fallbackBundle = "Template" ++ bundleSuffix := by decide
    rw [spelled, String.append_left_inj]
  have filled : ("Template" : String) ≠ "" := by decide
  rw [programName_append, programName_append, nameless, nameless, named, named, String.append_left_inj,
    String.append_left_inj]
  by_cases empty : stem = ""
  · by_cases void : rest = ""
    · rw [empty, void]
      exact iff_of_true rfl (.inl rfl)
    · rw [if_pos empty, if_neg void, empty]
      refine ⟨fun same => .inr (.inl ⟨rfl, same.symm⟩), ?_⟩
      rintro (same | ⟨-, same⟩ | ⟨same, -⟩)
      · exact absurd same.symm void
      · exact same.symm
      · exact absurd same.symm filled
  · by_cases void : rest = ""
    · rw [if_neg empty, if_pos void, void]
      refine ⟨fun same => .inr (.inr ⟨same, rfl⟩), ?_⟩
      rintro (same | ⟨same, -⟩ | ⟨same, -⟩)
      · exact absurd same empty
      · exact absurd same empty
      · exact same
    · rw [if_neg empty, if_neg void]
      simp only [empty, void, false_and, and_false, or_false]

theorem Rivals.programPath_eq {nameless named : String} (rivals : Rivals nameless named) :
    programPath nameless = programPath named := by
  obtain ⟨directory, rfl, rfl⟩ := rivals
  have clean : '/' ∉ bundleSuffix.toList := by decide
  have other : '/' ∉ fallbackBundle.toList := by decide
  have same : programName bundleSuffix = programName fallbackBundle := by decide
  rw [programPath, programPath, sibling, sibling, fileName_join clean, fileName_join other, same,
    directory_join clean other]

private theorem Rivals.not_nameless {nameless named : String} (rivals : Rivals nameless named) (other : String) :
    ¬Rivals named other := by
  rintro ⟨directory, spelled, -⟩
  obtain ⟨inner, -, rfl⟩ := rivals
  have clean : '/' ∉ bundleSuffix.toList := by decide
  have clear : '/' ∉ fallbackBundle.toList := by decide
  have same := congrArg fileName spelled
  rw [fileName_join clear, fileName_join clean] at same
  exact absurd same (by decide)

variable {request : Request} {tree : FileTree} {path bundle other : String} {entries : List (String × FileTree)}

section Below

variable {above : List String} (led : tree.directory? path = some above)
  (reached : tree.at? above = some (.directory entries)) (proper : (FileTree.directory entries).isProper = true)
include led reached proper

theorem programPath_eq_iff (below : BundleBelow path (.directory entries) bundle)
    (beside : BundleBelow path (.directory entries) other) :
    programPath bundle = programPath other ↔ bundle = other ∨ Rivals bundle other ∨ Rivals other bundle := by
  constructor
  · intro same
    have suffix := isBundlePath_iff.mp below.isBundlePath
    have ending := isBundlePath_iff.mp beside.isBundlePath
    obtain ⟨names, name, -, rfl, clean, held, -⟩ := below.exists_holder led reached proper
    obtain ⟨others, second, -, rfl, clear, within, -⟩ := beside.exists_holder led reached proper
    have placed := congrArg tree.place? same
    rw [place?_programPath, place?_programPath, held, within, fileName_join clean, fileName_join clear,
      Option.map_some, Option.map_some, Option.some.injEq] at placed
    obtain ⟨front, last⟩ := List.append_singleton_inj.mp placed
    obtain rfl := List.append_cancel_left front
    rw [fileName_join clean] at suffix
    rw [fileName_join clear] at ending
    rcases (programName_eq_iff suffix ending).mp last with rfl | ⟨rfl, rfl⟩ | ⟨rfl, rfl⟩
    · exact .inl rfl
    · exact .inr (.inl ⟨_, rfl, rfl⟩)
    · exact .inr (.inr ⟨_, rfl, rfl⟩)
  · rintro (rfl | rivals | rivals)
    · rfl
    · exact rivals.programPath_eq
    · exact rivals.programPath_eq.symm

/-- The walk meets each bundle once, and one without a name in front of its rival. -/
theorem bundlePaths_ordered (ordered : (FileTree.directory entries).isOrdered = true) :
    (bundlePaths path (.directory entries)).Pairwise fun first second => first ≠ second ∧ ¬Rivals second first := by
  rw [bundlePaths, FileTree.files_eq_leaves, List.map_map]
  apply List.Pairwise.filter
  apply List.pairwise_map.mpr
  apply (FileTree.leaves_ordered _ ordered).imp_of_mem
  intro first second member later less
  obtain ⟨-, placed⟩ := place?_foldl_join led reached proper ((FileTree.mem_leaves proper).mp member)
  obtain ⟨-, behind⟩ := place?_foldl_join led reached proper ((FileTree.mem_leaves proper).mp later)
  have less : above ++ first.1 < above ++ second.1 := List.append_left_lt less
  constructor
  · intro same
    have same : first.1.foldl join path = second.1.foldl join path := same
    rw [same, behind] at placed
    rw [Option.some.inj placed] at less
    exact List.lt_irrefl _ less
  · rintro ⟨directory, nameless, named⟩
    have nameless : second.1.foldl join path = join directory bundleSuffix := nameless
    have named : first.1.foldl join path = join directory fallbackBundle := named
    have clean : '/' ∉ bundleSuffix.toList := by decide
    have clear : '/' ∉ fallbackBundle.toList := by decide
    rw [nameless, FileTree.place?, FileTree.holder?_join clean, fileName_join clean] at behind
    rw [named, FileTree.place?, FileTree.holder?_join clear, fileName_join clear] at placed
    obtain ⟨names, held, same⟩ := Option.map_eq_some_iff.mp behind
    obtain ⟨others, within, again⟩ := Option.map_eq_some_iff.mp placed
    rw [held, Option.some.injEq] at within
    rw [← same, ← again, within] at less
    have before : [bundleSuffix] < [fallbackBundle] := by decide
    exact List.lt_asymm (List.append_left_lt before) less

end Below

/-! What is told -/

def Notice.written? : Notice → Option String
  | .written path => some path
  | _ => none

/-- The paths that a run has reported its programs under. -/
def Run.told (run : Run) : List String :=
  run.notices.filterMap Notice.written?

/-- The run has told of each program that it wrote, under its path, and of no other. -/
def Run.Candid (run : Run) : Prop :=
  run.told = run.written.map Prod.fst

namespace Run.Candid
variable {run : Run}

theorem tell (candid : run.Candid) {notices : List Notice} (silent : notices.filterMap Notice.written? = []) :
    (run.tell notices).Candid := by
  show (run.notices ++ notices).filterMap Notice.written? = run.written.map Prod.fst
  rw [List.filterMap_append, silent, List.append_nil]
  exact candid

private theorem warn (candid : run.Candid) (bundle : Bundle) (program : Program) :
    (run.tell (warnings bundle program)).Candid := by
  apply candid.tell
  apply List.filterMap_eq_nil_iff.mpr
  intro notice member
  obtain ⟨problem, -, rfl⟩ := List.mem_map.mp member
  rfl

private theorem deliver (candid : run.Candid) (request : Request) (path : String) (program : Program) :
    (deliver request path program run).1.Candid := by
  unfold Command.deliver
  split
  next => exact candid
  next =>
    dsimp only
    split
    next => exact candid
    next tree wrote =>
      show (run.notices ++ [_]).filterMap Notice.written? = (run.written ++ [_]).map Prod.fst
      rw [List.filterMap_append, List.map_append]
      exact congrArg (· ++ [programPath path]) candid

theorem runFile (candid : run.Candid) (request : Request) (path : String) (content : ByteArray) :
    (runFile request path content run).1.Candid := by
  unfold Command.runFile
  split
  next => exact candid
  next => exact candid
  next bundle program generated => exact (candid.warn bundle program).deliver request path program

private theorem runFound (candid : run.Candid) (request : Request) (path : String) :
    (runFound request path run).1.Candid := by
  unfold Command.runFound
  split
  next content found => exact candid.runFile request path content
  next => exact candid

private theorem runFiles (candid : run.Candid) (request : Request) (paths : List String) :
    (runFiles request paths run).1.Candid := by
  induction paths generalizing run with
  | nil => exact candid
  | cons path rest ih =>
    have turn := candid.runFound request path
    unfold Command.runFiles
    generalize Command.runFound request path run = ended at turn ⊢
    obtain ⟨next, ending⟩ := ended
    cases ending with
    | done => exact ih turn
    | failed error => exact ih (turn.tell rfl)
    | crashed => exact turn

private theorem runPath (candid : run.Candid) (request : Request) (path : String) :
    (runPath request path run).1.Candid := by
  unfold Command.runPath
  split
  next => exact candid
  next entries found =>
    unfold runDirectory
    dsimp only
    split
    next => exact candid
    next =>
      have walk := candid.runFiles request (bundlePaths path (.directory entries))
      generalize Command.runFiles request (bundlePaths path (.directory entries)) run = ended at walk ⊢
      obtain ⟨last, result⟩ := ended
      cases result with
      | error overflow => exact walk
      | ok failed => exact walk.tell rfl
  next content found =>
    split
    next =>
      have single := candid.runFile request path content
      generalize Command.runFile request path content run = ended at single ⊢
      obtain ⟨finished, ending⟩ := ended
      cases ending with
      | done => exact single.tell rfl
      | failed error => exact single
      | crashed => exact single
    next => exact candid

private theorem conclude {ended : Run × Ending} (candid : ended.1.Candid) : (conclude ended).1.Candid := by
  obtain ⟨run, ending⟩ := ended
  cases ending with
  | done => exact candid
  | failed error => exact candid.tell rfl
  | crashed => exact candid

end Run.Candid

private theorem run_candid (request : Request) (filed : request.fromInput = false) (tree : FileTree)
    (input : ByteArray) :
    (run request tree input).1.Candid := by
  have start : Run.Candid { tree } := rfl
  unfold run
  dsimp only
  rw [filed]
  split
  next wrong => exact absurd wrong Bool.false_ne_true
  next =>
    split
    next path named => exact (start.runPath request path).conclude
    next => exact start

/-! Whose program is left -/

private theorem product?_of_parse {options : Options} {text : String} {parsed : Bundle} {program : Program}
    (writable : tree.isWritable (programPath bundle) = true) (found : tree.find? bundle = some (.file text.toUTF8))
    (read : Bundle.parse text = .ok parsed) (generated : parsed.generate options = .ok program) :
    product? options tree bundle = some program := by
  refine product?_eq_some_iff.mpr ⟨writable, text.toUTF8, (parsed, program), found, ?_, rfl⟩
  apply generateContent_eq_ok_iff.mpr
  exact ⟨text, fromUTF8?_toUTF8 text, generateText_eq_ok_iff.mpr ⟨read, generated⟩⟩

section Kept

variable {bundles : List String} {run last : Run} {above : List String}
  (finished : Finished request tree bundles run last)
  (led : tree.directory? path = some above) (reached : tree.at? above = some (.directory entries))
  (proper : (FileTree.directory entries).isProper = true)
  (below : ∀ bundle ∈ bundles, BundleBelow path (.directory entries) bundle)
  (ordered : bundles.Pairwise fun first second => first ≠ second ∧ ¬Rivals second first)
include finished led reached proper below ordered

theorem Finished.find?_unrivaled {program : Program} (member : bundle ∈ bundles)
    (made : product? request.options tree bundle = some program)
    (unrivaled : ∀ named ∈ bundles, ¬Rivals bundle named) :
    last.tree.find? (programPath bundle) = some (.file program.code.toUTF8) := by
  obtain ⟨front, back, rfl⟩ := List.append_of_mem member
  refine finished.find?_last rfl made fun other later shared => ?_
  have listed : other ∈ front ++ bundle :: back := List.mem_append_right _ (List.mem_cons_of_mem _ later)
  have same := programPath_inj led reached proper (below other listed) (below bundle member) shared
  obtain ⟨apart, unnamed⟩ := (List.pairwise_cons.mp (List.pairwise_append.mp ordered).2.1).1 other later
  rcases (programPath_eq_iff led reached proper (below other listed) (below bundle member)).mp same with
    same | nameless | named
  · exact same
  · exact absurd nameless unnamed
  · exact absurd named (unrivaled other listed)

/-- The place of a bundle that has a rival with a name is left to the program of that rival. -/
theorem Finished.find?_rival {named : String} {program : Program} (member : named ∈ bundles)
    (made : product? request.options tree named = some program) (rivals : Rivals bundle named) :
    last.tree.find? (programPath bundle) = some (.file program.code.toUTF8) := by
  rw [rivals.programPath_eq]
  exact finished.find?_unrivaled led reached proper below ordered member made fun other _ => rivals.not_nameless other

end Kept

/-- When all bundles of a directory succeed, the program of each is told under a path that no other bundle has,
and is found there when the run is over; unless a bundle without a name and one that is called after the
fallback are in one directory. Those two are told under one path, where only the program of the second is
found. -/
theorem directory_programs_kept (request : Request) (plain : request.json = false)
    (found : tree.find? path = some (.directory entries)) (proper : (FileTree.directory entries).isProper = true)
    (ordered : (FileTree.directory entries).isOrdered = true)
    (succeeds : ∀ bundle, BundleBelow path (.directory entries) bundle → Succeeds request.options tree bundle)
    (input : ByteArray) :
    let bundles := bundlePaths path (.directory entries)
    let ended := run (request.ofPath path) tree input
    (∀ bundle, bundle ∈ bundles ↔ BundleBelow path (.directory entries) bundle) ∧
    (ended.2 = .success ↔ bundles ≠ []) ∧ ended.1.told = bundles.map programPath ∧
    ∀ bundle, BundleBelow path (.directory entries) bundle →
      (∀ other, BundleBelow path (.directory entries) other →
        (programPath bundle = programPath other ↔ bundle = other ∨ Rivals bundle other ∨ Rivals other bundle)) ∧
      ∃ program, product? request.options tree bundle = some program ∧
        ((∀ named, BundleBelow path (.directory entries) named → ¬Rivals bundle named) →
          ended.1.tree.find? (programPath bundle) = some (.file program.code.toUTF8)) ∧
        ∀ named, BundleBelow path (.directory entries) named → Rivals bundle named →
          ∃ replacing, product? request.options tree named = some replacing ∧
            ended.1.tree.find? (programPath bundle) = some (.file replacing.code.toUTF8) := by
  intro bundles ended
  obtain ⟨above, led, reached⟩ := FileTree.exists_directory? found
  obtain ⟨last, finished, kept, recorded, succeeded⟩ :=
    run_directory_calm (request.ofPath path) plain rfl rfl found input fun bundle member =>
      succeeds bundle ((mem_bundlePaths proper).mp member)
  have listed {bundle : String} : bundle ∈ bundles ↔ BundleBelow path (.directory entries) bundle :=
    mem_bundlePaths proper
  have below : ∀ bundle ∈ bundles, BundleBelow path (.directory entries) bundle := fun _ => listed.mp
  have inOrder := bundlePaths_ordered led reached proper ordered
  have product {bundle : String} (member : BundleBelow path (.directory entries) bundle) :
      ∃ program, product? request.options tree bundle = some program :=
    Option.isSome_iff_exists.mp (product?_isSome_iff.mpr (succeeds bundle member))
  refine ⟨fun _ => listed, ?_, ?_, fun bundle member =>
    ⟨fun other beside => programPath_eq_iff led reached proper member beside, ?_⟩⟩
  · exact succeeded
  · have told : ended.1.told = ended.1.written.map Prod.fst := run_candid (request.ofPath path) rfl tree input
    have each : ∀ bundle ∈ bundles, ((product? request.options tree bundle).map fun program =>
        (programPath bundle, program.code)).map Prod.fst = some (programPath bundle) := by
      intro bundle member
      obtain ⟨program, made⟩ := product (below bundle member)
      rw [made]
      rfl
    rw [told, recorded, finished.written, List.nil_append, List.map_filterMap]
    exact (List.filterMap_congr each).trans (congrFun List.filterMap_eq_map' bundles)
  · obtain ⟨program, made⟩ := product member
    refine ⟨program, made, fun unrivaled => ?_, fun named beside rivals => ?_⟩
    · rw [kept]
      exact finished.find?_unrivaled led reached proper below inOrder (listed.mpr member) made
        fun named listing => unrivaled named (below named listing)
    · obtain ⟨replacing, other⟩ := product beside
      refine ⟨replacing, other, ?_⟩
      rw [kept]
      exact finished.find?_rival led reached proper below inOrder (listed.mpr beside) other rivals

def noteText : String := "[\"note\",[[\"note\",\"n\",[[\"text\",\"n\",[0,1]]]]]]"

def note : Bundle := ⟨⟨"note"⟩, [⟨⟨"note"⟩, "n", [.text ⟨"n", ⟨0, 1⟩⟩]⟩], .empty⟩

theorem note_parse : Bundle.parse noteText = .ok note := by
  apply Bundle.parse_of_tokens
  rw [noteText, String.toList_ofList]
  decide +kernel

private theorem note_isSound : IsSound {} noteText.toUTF8 :=
  ⟨note, ⟨noteText, fromUTF8?_toUTF8 noteText, note_parse, rfl⟩,
    Bundle.fits_iff.mp (Bundle.fits_of_isRoomy (by decide) {})⟩

def rivalEntries : List (String × FileTree) :=
  [(".bundle.json", .file noteText.toUTF8), ("Template.bundle.json", .file pageText.toUTF8),
    ("page.bundle.json", .file pageText.toUTF8)]

def rivalSite : FileTree := .directory [("site", .directory rivalEntries)]

def rivalBundles : List String :=
  ["site/.bundle.json", "site/Template.bundle.json", "site/page.bundle.json"]

theorem rival_places :
    (rivalSite.place? "site" = some ["site"] ∧ FileTree.IsName (fileName "site")) ∧
      bundlePaths "site" (.directory rivalEntries) = rivalBundles ∧
      rivalBundles.map rivalSite.place? = [some ["site", ".bundle.json"], some ["site", "Template.bundle.json"],
        some ["site", "page.bundle.json"]] ∧
      rivalBundles.map programPath = ["site/Template.cs", "site/Template.cs", "site/page.cs"] ∧
      ∀ bundle ∈ rivalBundles, rivalSite.isWritable (programPath bundle) = true := by
  decide +kernel

theorem rivalEntries_proper : (FileTree.directory rivalEntries).isProper = true := by
  decide

theorem rivalEntries_ordered : (FileTree.directory rivalEntries).isOrdered = true := by
  decide

theorem rivalSite_find? : rivalSite.find? "site" = some (.directory rivalEntries) := by
  obtain ⟨⟨placed, named⟩, -⟩ := rival_places
  rw [FileTree.find?_eq named, placed]
  rfl

theorem rival_below {bundle : String} :
    bundle ∈ rivalBundles ↔ BundleBelow "site" (.directory rivalEntries) bundle := by
  rw [← rival_places.2.1]
  exact mem_bundlePaths rivalEntries_proper

private theorem rival_find? {bundle : String} {place : List String} {content : ByteArray}
    (listed : bundle ∈ rivalBundles)
    (placed : rivalSite.place? bundle = some place) (held : rivalSite.at? place = some (.file content)) :
    rivalSite.find? bundle = some (.file content) :=
  FileTree.find?_of_place (isName_of_isBundlePath (rival_below.mp listed).isBundlePath) placed held

theorem rival_contents :
    rivalSite.find? "site/.bundle.json" = some (.file noteText.toUTF8) ∧
      rivalSite.find? "site/Template.bundle.json" = some (.file pageText.toUTF8) ∧
      rivalSite.find? "site/page.bundle.json" = some (.file pageText.toUTF8) := by
  obtain ⟨-, -, placed, -⟩ := rival_places
  simp only [rivalBundles, List.map_cons, List.map_nil, List.cons.injEq, and_true] at placed
  obtain ⟨nameless, fallback, single⟩ := placed
  refine ⟨rival_find? ?_ nameless rfl, rival_find? ?_ fallback rfl, rival_find? ?_ single rfl⟩ <;> simp [rivalBundles]

theorem rival_programPaths :
    programPath "site/.bundle.json" = "site/Template.cs" ∧
      programPath "site/Template.bundle.json" = "site/Template.cs" ∧
      programPath "site/page.bundle.json" = "site/page.cs" := by
  obtain ⟨-, -, -, paths, -⟩ := rival_places
  simp only [rivalBundles, List.map_cons, List.map_nil, List.cons.injEq, and_true] at paths
  exact paths

theorem rivals_below :
    BundleBelow "site" (.directory rivalEntries) "site/.bundle.json" ∧
      BundleBelow "site" (.directory rivalEntries) "site/Template.bundle.json" ∧
      BundleBelow "site" (.directory rivalEntries) "site/page.bundle.json" := by
  have listed : ∀ bundle ∈ rivalBundles, BundleBelow "site" (.directory rivalEntries) bundle :=
    fun _ => rival_below.mp
  simp only [rivalBundles, List.forall_mem_cons, List.not_mem_nil, false_implies, implies_true, and_true] at listed
  exact listed

theorem rivals_stand : Rivals "site/.bundle.json" "site/Template.bundle.json" :=
  ⟨"site", by decide, by decide⟩

theorem rivals_succeed (bundle : String) (below : BundleBelow "site" (.directory rivalEntries) bundle) :
    Succeeds {} rivalSite bundle := by
  have listed := rival_below.mpr below
  obtain ⟨-, -, -, -, writable⟩ := rival_places
  have writable := writable bundle listed
  obtain ⟨nameless, fallback, single⟩ := rival_contents
  simp only [rivalBundles, List.mem_cons, List.not_mem_nil, or_false] at listed
  rcases listed with rfl | rfl | rfl
  · exact ⟨_, nameless, note_isSound, writable⟩
  · exact ⟨_, fallback, page_isSound _, writable⟩
  · exact ⟨_, single, page_isSound _, writable⟩

private theorem rival_programs : ∃ own replacing, note.generate {} = .ok own ∧ page.generate {} = .ok replacing ∧
    own.code ≠ replacing.code := by
  refine ⟨_, _, Bundle.generate_of_root (show note.find? note.root = some _ from rfl) (by decide) _,
    Bundle.generate_of_root (show page.find? page.root = some _ from rfl) (by decide) _, ?_⟩
  simp only [Session.gathered, Session.encountersOf, Session.encounters]
  decide +kernel

theorem directory_programs_kept_rivals :
    rivalSite.find? "site" = some (.directory rivalEntries) ∧ (FileTree.directory rivalEntries).isProper = true ∧
      (FileTree.directory rivalEntries).isOrdered = true ∧
      (∀ bundle, BundleBelow "site" (.directory rivalEntries) bundle → Succeeds {} rivalSite bundle) ∧
      Rivals "site/.bundle.json" "site/Template.bundle.json" ∧
      let ended := run (pageRequest.ofPath "site") rivalSite .empty
      ended.2 = .success ∧ ended.1.told = ["site/Template.cs", "site/Template.cs", "site/page.cs"] ∧
        (∃ program, product? {} rivalSite "site/page.bundle.json" = some program ∧
          ended.1.tree.find? "site/page.cs" = some (.file program.code.toUTF8)) ∧
        ∃ replacing, product? {} rivalSite "site/Template.bundle.json" = some replacing ∧
          ended.1.tree.find? "site/Template.cs" = some (.file replacing.code.toUTF8) := by
  obtain ⟨first, second, third⟩ := rivals_below
  obtain ⟨nameless, -, single⟩ := rival_programPaths
  obtain ⟨-, found, -, paths, -⟩ := rival_places
  obtain ⟨-, exits, told, each⟩ := directory_programs_kept pageRequest rfl rivalSite_find? rivalEntries_proper
    rivalEntries_ordered rivals_succeed .empty
  rw [found] at exits told
  rw [paths] at told
  have unrivaled (named : String) : ¬Rivals "site/page.bundle.json" named := by
    rintro ⟨directory, spelled, -⟩
    have last := congrArg fileName spelled
    rw [fileName_join (by decide)] at last
    exact absurd last (by decide)
  obtain ⟨-, program, made, stands, -⟩ := each "site/page.bundle.json" third
  have kept := stands fun named _ => unrivaled named
  obtain ⟨-, -, -, -, replaced⟩ := each "site/.bundle.json" first
  obtain ⟨replacing, built, instead⟩ := replaced "site/Template.bundle.json" second rivals_stand
  rw [single] at kept
  rw [nameless] at instead
  exact ⟨rivalSite_find?, rivalEntries_proper, rivalEntries_ordered, rivals_succeed, rivals_stand,
    exits.mpr (List.cons_ne_nil _ _), told, ⟨program, made, kept⟩, replacing, built, instead⟩

/-- All bundles succeed, and so does the run. The bundle without a name has a program; but the path that was
told for it leads to another text, the program of its rival. -/
theorem nameless_program_lost :
    (∀ bundle, BundleBelow "site" (.directory rivalEntries) bundle → Succeeds {} rivalSite bundle) ∧
      BundleBelow "site" (.directory rivalEntries) "site/.bundle.json" ∧
      BundleBelow "site" (.directory rivalEntries) "site/Template.bundle.json" ∧
      programPath "site/.bundle.json" = "site/Template.cs" ∧
      programPath "site/Template.bundle.json" = "site/Template.cs" ∧
      let ended := run (pageRequest.ofPath "site") rivalSite .empty
      ended.2 = .success ∧ ∃ own, product? {} rivalSite "site/.bundle.json" = some own ∧
        ended.1.tree.find? "site/Template.cs" ≠ some (.file own.code.toUTF8) := by
  obtain ⟨first, second, -⟩ := rivals_below
  obtain ⟨nameless, fallback, -⟩ := rival_programPaths
  obtain ⟨-, -, -, -, writable⟩ := rival_places
  obtain ⟨note, page, -⟩ := rival_contents
  obtain ⟨own, replacing, generated, other, apart⟩ := rival_programs
  have made : product? {} rivalSite "site/.bundle.json" = some own :=
    product?_of_parse (writable _ (rival_below.mpr first)) note note_parse generated
  have built : product? {} rivalSite "site/Template.bundle.json" = some replacing :=
    product?_of_parse (writable _ (rival_below.mpr second)) page page_parse other
  obtain ⟨above, led, reached⟩ := FileTree.exists_directory? rivalSite_find?
  have met {bundle : String} : bundle ∈ bundlePaths "site" (.directory rivalEntries) ↔
      BundleBelow "site" (.directory rivalEntries) bundle := mem_bundlePaths rivalEntries_proper
  obtain ⟨last, finished, kept, -, succeeded⟩ :=
    run_directory_calm (pageRequest.ofPath "site") rfl rfl rfl rivalSite_find? .empty fun bundle member =>
      rivals_succeed bundle (met.mp member)
  have inOrder := bundlePaths_ordered led reached rivalEntries_proper rivalEntries_ordered
  have stands := finished.find?_rival led reached rivalEntries_proper (fun _ => met.mp) inOrder (met.mpr second)
    built rivals_stand
  refine ⟨rivals_succeed, first, second, nameless, fallback,
    succeeded.mpr (List.ne_nil_of_mem (met.mpr first)), own, made, fun same => ?_⟩
  rw [kept, ← nameless, stands] at same
  simp only [Option.some.injEq, FileTree.file.injEq] at same
  exact apart (String.toByteArray_inj.mp same).symm

end Command

end TextTemplate
