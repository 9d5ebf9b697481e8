import TextTemplate.Proofs.Layout
import TextTemplate.Proofs.SingleFrame

/-! Every projection of a program generated from built templates relates a range of the code to
the range of the template it was written for. -/

namespace TextTemplate

private theorem compile_gathered (options : Options) (includes : Includes) (root : Template) :
    let session : Session := ⟨includes, options.macros, neverCancelled⟩
    compile options includes neverCancelled root =
      if session.fits root then .ok (.assemble (session.gathered root) options) else .error .overflow := by
  intro session
  rw [compile, Session.collect_calm (fun _ => rfl)]
  cases session.fits root <;> rfl

namespace Bundle

def session (bundle : Bundle) (options : Options) : Session :=
  ⟨bundle.includes, options.macros.withDefaults bundle.macros, neverCancelled⟩

@[simp] theorem session_includes (bundle : Bundle) (options : Options) :
    (bundle.session options).includes = bundle.includes := rfl

/-- Whether the program of a bundle is collected without an overflow. -/
def fits (bundle : Bundle) (options : Options) : Bool :=
  (bundle.find? bundle.root).all (bundle.session options).fits

/-- The places that sums are taken for when the program of a bundle is collected. -/
def Takes (bundle : Bundle) (options : Options) (span : Span) : Prop :=
  ∃ root, bundle.find? bundle.root = some root ∧ (bundle.session options).Takes root span

variable {bundle : Bundle} {options : Options} {program : Program} {root : Template} {entry : Projection}

theorem generate_located (located : bundle.find? bundle.root = some root) (options : Options) :
    let known := { options with macros := options.macros.withDefaults bundle.macros }
    bundle.generate options = if bundle.fits options then
        .ok (.assemble ((bundle.session options).gathered root) known)
      else .error .overflow := by
  intro known
  have same : bundle.fits options = (bundle.session options).fits root := by rw [fits, located, Option.all_some]
  simp only [generate, rootTemplate, located, compile_gathered]
  rw [same]
  show (if (bundle.session options).fits root then _ else _ : Except Interruption Program).mapError _ = _
  cases (bundle.session options).fits root <;> rfl

theorem generate_missing (missing : bundle.find? bundle.root = none) (options : Options) :
    bundle.generate options = .error (.missingRoot bundle.root) := by
  simp only [generate, rootTemplate, missing]

theorem collect_session (located : bundle.find? bundle.root = some root) (options : Options) :
    (bundle.session options).collect root =
      if bundle.fits options then .ok ((bundle.session options).gathered root) else .error .overflow := by
  rw [fits, located, Option.all_some]
  exact Session.collect_calm (fun _ => rfl) root

theorem fits_iff : bundle.fits options = true ↔ ∀ span, bundle.Takes options span → span.IsWord := by
  rw [fits, Option.all_eq_true]
  constructor
  · rintro each span ⟨root, located, takes⟩
    exact Session.fits_iff.mp (each root located) span takes
  · intro words root located
    exact Session.fits_iff.mpr fun span takes => words span ⟨root, located, takes⟩

theorem fits_eq_false_iff : bundle.fits options = false ↔ ∃ span, bundle.Takes options span ∧ ¬span.IsWord := by
  rw [← Bool.not_eq_true, fits_iff]
  push Not
  rfl

theorem fits_of_generated (generated : bundle.generate options = .ok program) : bundle.fits options = true := by
  cases located : bundle.find? bundle.root with
  | none => cases (generate_missing located options).symm.trans generated
  | some root =>
    rw [generate_located located] at generated
    split at generated
    · assumption
    · cases generated

theorem fits_of_isRoomy (roomy : bundle.isRoomy = true) (options : Options) : bundle.fits options = true := by
  rw [fits]
  cases located : bundle.find? bundle.root with
  | none => rfl
  | some root => exact Session.fits_of_isRoomy roomy (session_includes bundle options) (find?_self located)

theorem generate_of_root (located : bundle.find? bundle.root = some root) (roomy : bundle.isRoomy = true)
    (options : Options) :
    let known := { options with macros := options.macros.withDefaults bundle.macros }
    bundle.generate options =
      .ok (.assemble (Session.gathered ⟨bundle.includes, known.macros, neverCancelled⟩ root) known) := by
  intro known
  rw [generate_located located, if_pos (fits_of_isRoomy roomy options)]
  rfl

theorem generate_gathered (generated : bundle.generate options = .ok program) :
    let known := { options with macros := options.macros.withDefaults bundle.macros }
    ∃ root, bundle.find? bundle.root = some root ∧
      program = .assemble (Session.gathered ⟨bundle.includes, known.macros, neverCancelled⟩ root) known := by
  intro known
  cases located : bundle.find? bundle.root with
  | none => cases (generate_missing located options).symm.trans generated
  | some root =>
    rw [generate_located located] at generated
    split at generated
    · exact ⟨root, rfl, (Except.ok.inj generated).symm⟩
    · cases generated

theorem entry_yields (built : bundle.IsBuilt)
    (generated : bundle.generate options = .ok program) (member : entry ∈ program.table.entries) :
    ∃ template original, bundle.find? entry.origin.source = some template ∧
      template.Yields original entry.origin.span entry.origin.kind (entry.origin.kind.write original) ∧
      entry.generated.Covers program.code.toList (entry.origin.kind.write original) := by
  obtain ⟨root, located, rfl⟩ := generate_gathered generated
  obtain ⟨kind, piece, own, remembered, -, covers⟩ := Program.assemble_covers member
  obtain ⟨template, original, found, yields⟩ :=
    Session.gathered_accounts built rfl (find?_self located) own entry.origin remembered
  rw [yields.written] at covers
  exact ⟨template, original, found, yields.written ▸ yields, covers⟩

theorem table_ordered (generated : bundle.generate options = .ok program) : program.table.Ordered := by
  obtain ⟨root, -, rfl⟩ := generate_gathered generated
  exact Program.assemble_ordered _ _

/-- When all templates were built, each projection names a template of the bundle, its origin is
a range of that template's text that is not empty, its generated range is a range of the code,
and the code there is the text of the origin, copied or escaped as its kind says. -/
theorem generate_projection (built : bundle.IsBuilt)
    (generated : bundle.generate options = .ok program) (member : entry ∈ program.table.entries) :
    ∃ template original written, bundle.find? entry.origin.source = some template ∧
      template.slice? entry.origin.span = some original ∧ original ≠ "" ∧
      entry.generated.slice? program.code = some written ∧
      match entry.origin.kind with
      | .code => written = original
      | .text => Code.unescape written = original := by
  obtain ⟨template, original, found, yields, covers⟩ := entry_yields built generated member
  refine ⟨template, String.ofList original, String.ofList (entry.origin.kind.write original), found,
    Span.slice?_of_covers yields.covers, ?_, Span.slice?_of_covers covers, ?_⟩
  · intro empty
    exact yields.nonempty (by simpa using empty)
  · cases entry.origin.kind with
    | code => rfl
    | text =>
      show Code.unescape (String.ofList (Code.escapeChars original)) = _
      rw [Code.unescape, String.toList_ofList, Code.unescapeChars_escapeChars]

def sampleRoot : Template := .build ⟨"a"⟩ [.text "\"é", .code .expression "n"]

def sample : Bundle := ⟨⟨"a"⟩, [sampleRoot], .empty⟩

theorem sample_built : sample.IsBuilt := by
  intro template member
  cases List.mem_singleton.mp member
  exact ⟨_, rfl⟩

theorem sample_generate : ∃ program, sample.generate {} = .ok program ∧
    program.code.utf8ByteSize < offsetBound ∧
    program.table.entries.toList =
      [⟨⟨290, 294⟩, ⟨⟨"a"⟩, ⟨0, 3⟩, .text⟩, 7⟩, ⟨⟨349, 350⟩, ⟨⟨"a"⟩, ⟨6, 7⟩, .code⟩, 8⟩] := by
  refine ⟨_, generate_of_root (show sample.find? sample.root = some sampleRoot by decide)
    (by decide) {}, ?_⟩
  have nodes : sampleRoot.nodes = [.text ⟨"\"é", ⟨0, 3⟩⟩, .code ⟨.expression, "n", ⟨6, 7⟩, ⟨3, 9⟩⟩] := by
    decide
  rw [Session.gathered, Session.encountersOf, nodes, Session.encounters, Session.encounters, Session.encounters]
  refine ⟨by decide +kernel, ?_⟩
  rw [Program.assemble_plain (by decide)]
  decide

theorem generate_projection_sample : ∃ program entry, sample.generate {} = .ok program ∧
    entry ∈ program.table.entries ∧
    ∃ template original written, sample.find? entry.origin.source = some template ∧
      template.slice? entry.origin.span = some original ∧ original ≠ "" ∧
      entry.generated.slice? program.code = some written ∧
      match entry.origin.kind with
      | .code => written = original
      | .text => Code.unescape written = original := by
  obtain ⟨program, generated, -, entries⟩ := sample_generate
  have member : ⟨⟨290, 294⟩, ⟨⟨"a"⟩, ⟨0, 3⟩, .text⟩, 7⟩ ∈ program.table.entries := by
    rw [← Array.mem_toList_iff, entries]
    exact List.mem_cons_self
  exact ⟨program, _, generated, member, generate_projection sample_built generated member⟩

end Bundle

end TextTemplate
