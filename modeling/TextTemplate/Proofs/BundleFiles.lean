import TextTemplate.Command.Run
import TextTemplate.Proofs.FilePaths
import TextTemplate.Proofs.OffsetRange

/-! A bundle file and its program. The program is written beside the bundle, under a name that no bundle
has; and it does not matter whether the bundle is read from a file or from the input: the same contents are
generated, into the same program, with the same problems reported, and the same contents end in an overflow. -/

namespace TextTemplate

namespace Command
open PathText

/-- Content that is read as a bundle with its root. -/
def Reads (content : ByteArray) (bundle : Bundle) : Prop :=
  ∃ text, String.fromUTF8? content = some text ∧ Bundle.parse text = .ok bundle ∧
    (bundle.find? bundle.root).isSome = true

/-- Content that a program is generated from: each place that a sum is taken for has offsets. -/
def IsSound (options : Options) (content : ByteArray) : Prop :=
  ∃ bundle, Reads content bundle ∧ ∀ span, bundle.Takes options span → span.IsWord

/-- Content whose generation ends in a sum that is no offset. -/
def Overflows (options : Options) (content : ByteArray) : Prop :=
  ∃ bundle, Reads content bundle ∧ ∃ span, bundle.Takes options span ∧ ¬span.IsWord

def Request.ofInput (request : Request) : Request :=
  { request with fromInput := true }

def Request.ofPath (request : Request) (path : String) : Request :=
  { request with fromInput := false, path? := some path }

def Notice.report? : Notice → Option String
  | .warning report => some report
  | _ => none

def Run.reports (run : Run) : List String :=
  run.notices.filterMap Notice.report?

/-! Names of bundles and programs -/

theorem isBundlePath_iff {path : String} :
    isBundlePath path = true ↔ bundleSuffix.toList <:+ (fileName path).toList := by
  rw [isBundlePath, String.endsWith_eq_endsWith_toSlice, String.Slice.endsWith_string_iff, String.copy_toSlice]

theorem isName_of_isBundlePath {path : String} (bundle : isBundlePath path = true) :
    FileTree.IsName (fileName path) := by
  have long := (isBundlePath_iff.mp bundle).length_le
  refine ⟨fileName_clean path, ?_, ?_, ?_⟩ <;>
    · intro short
      rw [short] at long
      exact absurd long (by decide)

theorem programName_suffix (name : String) : ".cs".toList <:+ (programName name).toList := by
  rw [programName, String.toList_append]
  exact List.suffix_append _ _

theorem programName_isName {name : String} (clean : '/' ∉ name.toList) : FileTree.IsName (programName name) := by
  have long := programName_suffix name
  refine ⟨?_, ?_, ?_, ?_⟩
  · rw [programName, String.toList_append, List.mem_append, not_or]
    refine ⟨?_, by decide⟩
    split
    next => decide
    next =>
      rw [String.toList_ofList]
      exact fun inside => clean (List.mem_of_mem_take inside)
  all_goals
    intro short
    rw [short] at long
    exact absurd long (by decide)

theorem programName_not_bundle (name : String) : ¬bundleSuffix.toList <:+ (programName name).toList := by
  intro bundle
  exact absurd (List.suffix_or_suffix_of_suffix (programName_suffix name) bundle) (by decide)

theorem fileName_programPath (path : String) : fileName (programPath path) = programName (fileName path) :=
  fileName_join (programName_isName (fileName_clean path)).1

/-- A program stands beside its bundle. -/
theorem place?_programPath (tree : FileTree) (path : String) :
    tree.place? (programPath path) = (tree.holder? path).map fun names => names ++ [programName (fileName path)] := by
  have beside : tree.holder? (programPath path) = tree.holder? path :=
    (FileTree.holder?_join (programName_isName (fileName_clean path)).1).trans
      (FileTree.directory?_directory tree path)
  rw [FileTree.place?, beside, fileName_programPath]

/-! Generating one bundle -/

variable {request : Request} {options : Options} {content : ByteArray} {path : String} {tree : FileTree}

theorem fromUTF8?_toUTF8 (text : String) : String.fromUTF8? text.toUTF8 = some text :=
  dif_pos text.isValidUTF8

private theorem parse_error {text : String} {cause : GenerationError} (failed : Bundle.parse text = .error cause) :
    cause = .malformed := by
  rw [Bundle.parse] at failed
  split at failed
  · cases failed
  · exact (Except.error.inj failed).symm

theorem generateText_eq_ok_iff {text : String} {built : Bundle × Program} :
    generateText options text = .ok built ↔
      Bundle.parse text = .ok built.1 ∧ built.1.generate options = .ok built.2 := by
  constructor
  · intro generated
    rw [generateText] at generated
    cases read : Bundle.parse text with
    | error cause => rw [read] at generated; cases generated
    | ok bundle =>
      simp only [read] at generated
      cases made : bundle.generate options with
      | error cause => rw [made] at generated; cases generated
      | ok program =>
        rw [made] at generated
        cases generated
        exact ⟨rfl, made⟩
  · rintro ⟨read, made⟩
    simp only [generateText, read, made]
    rfl

theorem generateContent_eq_ok_iff {built : Bundle × Program} :
    generateContent options content = .ok built ↔
      ∃ text, String.fromUTF8? content = some text ∧ generateText options text = .ok built := by
  rw [generateContent]
  cases String.fromUTF8? content with
  | none => exact ⟨nofun, fun ⟨_, decoded, _⟩ => nomatch decoded⟩
  | some text => simp only [Option.some.injEq, exists_eq_left']

theorem Reads.unique {bundle other : Bundle} (reads : Reads content bundle) (again : Reads content other) :
    bundle = other := by
  obtain ⟨text, decoded, read, -⟩ := reads
  obtain ⟨same, held, parsed, -⟩ := again
  cases decoded.symm.trans held
  cases read.symm.trans parsed
  rfl

theorem Reads.generateContent_eq {bundle : Bundle} (reads : Reads content bundle) (options : Options) :
    generateContent options content = (bundle.generate options).map fun program => (bundle, program) := by
  obtain ⟨text, decoded, read, -⟩ := reads
  simp only [generateContent, decoded, generateText, read]

/-- What comes of content: a program, an overflow, or an error that tells why it is not read. -/
theorem generateContent_cases (options : Options) (content : ByteArray) :
    (∃ bundle program, Reads content bundle ∧ bundle.fits options = true ∧
      generateContent options content = .ok (bundle, program)) ∨
    (∃ bundle, Reads content bundle ∧ bundle.fits options = false ∧
      generateContent options content = .error .overflow) ∨
    ((∀ bundle, ¬Reads content bundle) ∧
      ∃ cause, cause ≠ .overflow ∧ generateContent options content = .error cause) := by
  by_cases readable : ∃ bundle, Reads content bundle
  · obtain ⟨bundle, reads⟩ := readable
    have generates := reads.generateContent_eq options
    obtain ⟨-, -, -, rooted⟩ := id reads
    obtain ⟨root, located⟩ := Option.isSome_iff_exists.mp rooted
    rw [Bundle.generate_located located] at generates
    cases room : bundle.fits options with
    | true =>
      rw [room, if_pos rfl] at generates
      exact .inl ⟨bundle, _, reads, room, generates⟩
    | false =>
      rw [room, if_neg Bool.false_ne_true] at generates
      exact .inr (.inl ⟨bundle, reads, room, generates⟩)
  · refine .inr (.inr ⟨fun bundle reads => readable ⟨bundle, reads⟩, ?_⟩)
    cases decoded : String.fromUTF8? content with
    | none => exact ⟨.unreadable, nofun, by simp only [generateContent, decoded]⟩
    | some text =>
      cases read : Bundle.parse text with
      | error cause =>
        have malformed := parse_error read
        exact ⟨cause, malformed ▸ nofun, by simp only [generateContent, decoded, generateText, read]⟩
      | ok bundle =>
        have missing : bundle.find? bundle.root = none := by
          rw [← Option.not_isSome_iff_eq_none]
          exact fun rooted => readable ⟨bundle, text, decoded, read, rooted⟩
        refine ⟨.missingRoot bundle.root, nofun, ?_⟩
        simp only [generateContent, decoded, generateText, read, Bundle.generate_missing missing]
        rfl

theorem exists_generated_iff :
    (∃ built, generateContent options content = .ok built) ↔ IsSound options content := by
  rcases generateContent_cases options content with
    ⟨bundle, program, reads, room, generated⟩ | ⟨bundle, reads, far, failed⟩ | ⟨unread, cause, -, failed⟩
  · exact iff_of_true ⟨_, generated⟩ ⟨bundle, reads, Bundle.fits_iff.mp room⟩
  · refine iff_of_false ?_ ?_
    · rintro ⟨built, generated⟩
      cases failed.symm.trans generated
    · rintro ⟨other, again, words⟩
      cases reads.unique again
      rw [Bundle.fits_iff.mpr words] at far
      cases far
  · refine iff_of_false ?_ fun ⟨bundle, reads, _⟩ => unread bundle reads
    rintro ⟨built, generated⟩
    cases failed.symm.trans generated

theorem generateContent_overflow_iff :
    generateContent options content = .error .overflow ↔ Overflows options content := by
  rcases generateContent_cases options content with
    ⟨bundle, program, reads, room, generated⟩ | ⟨bundle, reads, far, failed⟩ | ⟨unread, cause, other, failed⟩
  · refine iff_of_false (fun failed => nomatch generated.symm.trans failed) ?_
    rintro ⟨other, again, span, takes, far⟩
    cases reads.unique again
    exact far (Bundle.fits_iff.mp room span takes)
  · refine iff_of_true failed ⟨bundle, reads, ?_⟩
    rw [← Bool.not_eq_true, Bundle.fits_iff, not_forall] at far
    obtain ⟨span, far⟩ := far
    exact ⟨span, Classical.not_imp.mp far⟩
  · refine iff_of_false (fun same => ?_) fun ⟨bundle, reads, _⟩ => unread bundle reads
    cases failed.symm.trans same
    exact other rfl

private theorem run_input_ok (request : Request) {built : Bundle × Program}
    (generated : generateContent request.options content = .ok built) (piped : request.fromInput = true)
    (plain : request.injections = false) (tree : FileTree) :
    run request tree content =
      ({ tree
         output := if request.json then jsonLine built.2 none else built.2.code
         notices := warnings built.1 built.2 }, .success) := by
  obtain ⟨text, decoded, made⟩ := generateContent_eq_ok_iff.mp generated
  unfold run runInput
  simp only [piped, if_true, decoded, made, plain, Run.tell, Run.print, List.nil_append, String.empty_append]
  rfl

private theorem run_input_error (request : Request) {cause : GenerationError}
    (failed : generateContent request.options content = .error cause) (returned : cause ≠ .overflow)
    (piped : request.fromInput = true) (tree : FileTree) :
    ∃ error, run request tree content = ({ tree, notices := [.failure error] }, .failure) := by
  unfold generateContent at failed
  unfold run runInput
  simp only [piped, if_true]
  cases decoded : String.fromUTF8? content with
  | none => exact ⟨_, rfl⟩
  | some text =>
    simp only [decoded] at failed
    simp only [failed]
    cases cause with
    | overflow => exact absurd rfl returned
    | _ => exact ⟨_, rfl⟩

theorem run_input_overflow (request : Request)
    (failed : generateContent request.options content = .error .overflow) (piped : request.fromInput = true)
    (tree : FileTree) : run request tree content = ({ tree }, .crash) := by
  unfold generateContent at failed
  unfold run runInput
  simp only [piped, if_true]
  cases decoded : String.fromUTF8? content with
  | none =>
    rw [decoded] at failed
    cases failed
  | some text =>
    simp only [decoded] at failed
    simp only [failed]
    rfl

theorem runFile_error {cause : GenerationError} (failed : generateContent request.options content = .error cause)
    (returned : cause ≠ .overflow) (path : String) (run : Run) :
    runFile request path content run = (run, .failed (.bundle path cause)) := by
  unfold runFile
  rw [failed]
  cases cause with
  | overflow => exact absurd rfl returned
  | _ => rfl

theorem runFile_overflow (failed : generateContent request.options content = .error .overflow) (path : String)
    (run : Run) : runFile request path content run = (run, .crashed) := by
  unfold runFile
  rw [failed]

private theorem runFile_json {built : Bundle × Program}
    (generated : generateContent request.options content = .ok built)
    (json : request.json = true) (path : String) (run : Run) :
    runFile request path content run =
      ((run.tell (warnings built.1 built.2)).print (jsonLine built.2 none), .done) := by
  unfold runFile
  rw [generated]
  simp only [deliver, json, if_true]

theorem runFile_written (run : Run) {built : Bundle × Program} {after : FileTree}
    (generated : generateContent request.options content = .ok built) (plain : request.json = false)
    (wrote : run.tree.write? (programPath path) built.2.code.toUTF8 = some after) :
    runFile request path content run =
      ({ run with
          tree := after
          notices := run.notices ++ warnings built.1 built.2 ++ [.written (programPath path)]
          written := run.written ++ [(programPath path, built.2.code)] }, .done) := by
  unfold runFile
  rw [generated]
  simp only [deliver, plain, Bool.false_eq_true, if_false, Run.tell, wrote]

theorem runFile_unwritable (run : Run) {built : Bundle × Program}
    (generated : generateContent request.options content = .ok built) (plain : request.json = false)
    (refused : run.tree.write? (programPath path) built.2.code.toUTF8 = none) :
    runFile request path content run =
      (run.tell (warnings built.1 built.2), .failed (.unwritable (programPath path))) := by
  unfold runFile
  rw [generated]
  simp only [deliver, plain, Bool.false_eq_true, if_false, Run.tell, refused]

section Alone

variable (request : Request) (filed : request.fromInput = false) (named : request.path? = some path)
  (bundle : isBundlePath path = true) (found : tree.find? path = some (.file content)) (input : ByteArray)
include filed named bundle found

theorem run_file :
    run request tree input =
      conclude (match runFile request path content { tree } with
        | (finished, .done) => (finished.tell [.summary 1], .done)
        | unfinished => unfinished) := by
  unfold run runPath
  simp only [filed, named, found, bundle, if_true]
  rfl

theorem run_file_error {cause : GenerationError}
    (failed : generateContent request.options content = .error cause) (returned : cause ≠ .overflow) :
    run request tree input = ({ tree, notices := [.failure (.bundle path cause)] }, .failure) := by
  rw [run_file request filed named bundle found, runFile_error failed returned]
  rfl

theorem run_file_overflow (failed : generateContent request.options content = .error .overflow) :
    run request tree input = ({ tree }, .crash) := by
  rw [run_file request filed named bundle found, runFile_overflow failed]
  rfl

private theorem run_file_json {built : Bundle × Program}
    (generated : generateContent request.options content = .ok built) (json : request.json = true) :
    run request tree input =
      ({ tree
         output := jsonLine built.2 none
         notices := warnings built.1 built.2 ++ [.summary 1] }, .success) := by
  rw [run_file request filed named bundle found, runFile_json generated json]
  simp only [conclude, Run.tell, Run.print, List.nil_append, String.empty_append]

theorem run_file_written {built : Bundle × Program} {after : FileTree}
    (generated : generateContent request.options content = .ok built) (plain : request.json = false)
    (wrote : tree.write? (programPath path) built.2.code.toUTF8 = some after) :
    run request tree input =
      ({ tree := after
         notices := warnings built.1 built.2 ++ [.written (programPath path), .summary 1]
         written := [(programPath path, built.2.code)] }, .success) := by
  rw [run_file request filed named bundle found, runFile_written { tree } generated plain wrote]
  simp only [conclude, Run.tell, List.nil_append, List.append_assoc, List.cons_append]

theorem run_file_unwritable {built : Bundle × Program}
    (generated : generateContent request.options content = .ok built) (plain : request.json = false)
    (refused : tree.write? (programPath path) built.2.code.toUTF8 = none) :
    (run request tree input).2 = .failure := by
  rw [run_file request filed named bundle found, runFile_unwritable { tree } generated plain refused]
  rfl

end Alone

/-! The input and a file -/

/-- A bundle is generated alike from the input and from a file: the command ends alike, and exactly sound
contents become the same program or line of JSON, with the same reports. Whether it fails or ends in an overflow,
nothing is written. -/
theorem input_and_file_agree (request : Request) (plain : request.injections = false)
    (bundle : isBundlePath path = true) (found : tree.find? path = some (.file content))
    (writable : request.json = false → tree.isWritable (programPath path) = true)
    (elsewhere : FileTree) (unread : ByteArray) :
    let piped := run request.ofInput elsewhere content
    let filed := run (request.ofPath path) tree unread
    piped.2 = filed.2 ∧ (piped.2 = .success ↔ IsSound request.options content) ∧
      (piped.2 = .crash ↔ Overflows request.options content) ∧
      piped.1.reports = filed.1.reports ∧ piped.1.written = [] ∧ piped.1.tree = elsewhere ∧
      (piped.2 = .success → request.json = false →
        filed.1.tree.find? (programPath path) = some (.file piped.1.output.toUTF8) ∧
          filed.1.written = [(programPath path, piped.1.output)] ∧ filed.1.output = "") ∧
      (piped.2 = .success → request.json = true →
        filed.1.output = piped.1.output ∧ filed.1.written = [] ∧ filed.1.tree = tree) ∧
      (piped.2 ≠ .success →
        filed.1.written = [] ∧ filed.1.tree = tree ∧ filed.1.output = "" ∧ piped.1.output = "") := by
  intro piped filed
  rw [← exists_generated_iff, ← generateContent_overflow_iff]
  cases generated : generateContent request.options content with
  | error cause =>
    by_cases returned : cause = .overflow
    · subst returned
      have fromInput : piped = ({ tree := elsewhere }, .crash) :=
        run_input_overflow request.ofInput generated rfl elsewhere
      have fromFile : filed = ({ tree }, .crash) :=
        run_file_overflow (request.ofPath path) rfl rfl bundle found unread generated
      rw [fromInput, fromFile]
      exact ⟨rfl, ⟨nofun, nofun⟩, iff_of_true rfl rfl, rfl, rfl, rfl, nofun, nofun, fun _ => ⟨rfl, rfl, rfl, rfl⟩⟩
    · obtain ⟨error, fromInput⟩ : ∃ error, piped = ({ tree := elsewhere, notices := [.failure error] }, .failure) :=
        run_input_error request.ofInput generated returned rfl elsewhere
      have fromFile : filed = ({ tree, notices := [.failure (.bundle path cause)] }, .failure) :=
        run_file_error (request.ofPath path) rfl rfl bundle found unread generated returned
      rw [fromInput, fromFile]
      exact ⟨rfl, ⟨nofun, nofun⟩, iff_of_false nofun fun same => returned (Except.error.inj same), rfl, rfl, rfl,
        nofun, nofun, fun _ => ⟨rfl, rfl, rfl, rfl⟩⟩
  | ok built =>
    have fromInput : piped =
        ({ tree := elsewhere
           output := if request.json then jsonLine built.2 none else built.2.code
           notices := warnings built.1 built.2 }, .success) :=
      run_input_ok request.ofInput generated rfl plain elsewhere
    have made : ∃ other, Except.ok built = (.ok other : Except GenerationError _) := ⟨built, rfl⟩
    rw [fromInput]
    cases json : request.json with
    | true =>
      have fromFile : filed = _ :=
        run_file_json (request.ofPath path) rfl rfl bundle found unread generated json
      rw [fromFile]
      refine ⟨rfl, iff_of_true rfl made, iff_of_false nofun nofun, ?_, rfl, rfl, fun _ => nofun,
        fun _ _ => ⟨?_, rfl, rfl⟩, fun unequal => absurd rfl unequal⟩
      · simp [Run.reports, Notice.report?]
      · rfl
    | false =>
      obtain ⟨after, wrote⟩ := FileTree.exists_write (writable json) built.2.code.toUTF8
      have fromFile : filed = _ :=
        run_file_written (request.ofPath path) rfl rfl bundle found unread generated json wrote
      have placed := FileTree.find?_write wrote
        (fileName_programPath path ▸ programName_isName (fileName_clean path))
      rw [fromFile]
      refine ⟨rfl, iff_of_true rfl made, iff_of_false nofun nofun, ?_, rfl, rfl, fun _ _ => ⟨?_, ?_, rfl⟩,
        fun _ => nofun, fun unequal => absurd rfl unequal⟩
      · simp [Run.reports, Notice.report?]
      · exact placed
      · rfl

def pageText : String :=
  "[\"page\",[[\"page\",\"missing.t4 é\",[[\"include\",\"missing.t4\",[0,10],[0,10]],[\"text\",\"é\",[11,13]]]]]]"

def page : Bundle :=
  ⟨⟨"page"⟩,
    [⟨⟨"page"⟩, "missing.t4 é", [.inclusion ⟨"missing.t4", ⟨0, 10⟩, ⟨0, 10⟩⟩, .text ⟨"é", ⟨11, 13⟩⟩]⟩], .empty⟩

def pageSite : FileTree :=
  .directory [("site", .directory [("page.bundle.json", .file pageText.toUTF8)])]

def pageRequest : Request :=
  { path? := none, fromInput := true, json := false, injections := false, options := {} }

theorem page_parse : Bundle.parse pageText = .ok page := by
  apply Bundle.parse_of_tokens
  rw [pageText, String.toList_ofList]
  decide +kernel

theorem page_isSound (options : Options) : IsSound options pageText.toUTF8 :=
  ⟨page, ⟨pageText, fromUTF8?_toUTF8 pageText, page_parse, rfl⟩,
    Bundle.fits_iff.mp (Bundle.fits_of_isRoomy (by decide) options)⟩

theorem input_and_file_agree_page :
    let path := "site/page.bundle.json"
    isBundlePath path = true ∧ pageSite.find? path = some (.file pageText.toUTF8) ∧
      pageSite.isWritable (programPath path) = true ∧
      let piped := run pageRequest.ofInput (.directory []) pageText.toUTF8
      let filed := run (pageRequest.ofPath path) pageSite .empty
      piped.2 = .success ∧ filed.2 = .success ∧ piped.1.reports = filed.1.reports ∧
        filed.1.tree.find? (programPath path) = some (.file piped.1.output.toUTF8) ∧
        filed.1.written = [(programPath path, piped.1.output)] := by
  intro path
  have bundle : isBundlePath path = true := by decide +kernel
  have placed : pageSite.place? path = some ["site", "page.bundle.json"] := by decide +kernel
  have found : pageSite.find? path = some (.file pageText.toUTF8) :=
    FileTree.find?_of_place (isName_of_isBundlePath bundle) placed rfl
  have writable : pageSite.isWritable (programPath path) = true := by decide +kernel
  obtain ⟨alike, sound, -, reports, -, -, written, -⟩ :=
    input_and_file_agree pageRequest rfl bundle found (fun _ => writable) (.directory []) .empty
  have piped := sound.mpr (page_isSound _)
  obtain ⟨stands, only, -⟩ := written piped rfl
  exact ⟨bundle, found, writable, piped, alike ▸ piped, reports, stands, only⟩

def farSite : FileTree :=
  .directory [("site", .directory [("far.bundle.json", .file Bundle.farText.toUTF8)])]

theorem far_reads : Reads Bundle.farText.toUTF8 Bundle.far :=
  ⟨Bundle.farText, fromUTF8?_toUTF8 _, Bundle.far_parse, rfl⟩

theorem far_content_overflows : generateContent {} Bundle.farText.toUTF8 = .error .overflow := by
  rw [far_reads.generateContent_eq, Bundle.far_generate]
  rfl

/-- The bundle is read and has its root, and its program could be written; but from the input and from the file
alike the command ends with neither of its exit codes. -/
theorem input_and_file_crash :
    let path := "site/far.bundle.json"
    Reads Bundle.farText.toUTF8 Bundle.far ∧ isBundlePath path = true ∧
      farSite.find? path = some (.file Bundle.farText.toUTF8) ∧ farSite.isWritable (programPath path) = true ∧
      let piped := (run pageRequest.ofInput (.directory []) Bundle.farText.toUTF8).2
      let filed := (run (pageRequest.ofPath path) farSite .empty).2
      (piped.code ≠ 0 ∧ piped.code ≠ 1) ∧ filed.code ≠ 0 ∧ filed.code ≠ 1 := by
  intro path
  have bundle : isBundlePath path = true := by decide +kernel
  have placed : farSite.place? path = some ["site", "far.bundle.json"] := by decide +kernel
  have found : farSite.find? path = some (.file Bundle.farText.toUTF8) :=
    FileTree.find?_of_place (isName_of_isBundlePath bundle) placed rfl
  refine ⟨far_reads, bundle, found, by decide +kernel, ?_⟩
  rw [run_input_overflow pageRequest.ofInput far_content_overflows rfl,
    run_file_overflow (pageRequest.ofPath path) rfl rfl bundle found .empty far_content_overflows]
  decide

end Command

end TextTemplate
