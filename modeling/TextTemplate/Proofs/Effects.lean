import TextTemplate.Proofs.Absorption
import TextTemplate.Proofs.Encounters

/-! What a directive or embedded code does to a walk, said once and as data. Which effect it has
depends on the node and on what the walk has seen; the effect itself adds to the innermost frame
and to the lists of the whole program, and leaves the open sources and the frames around alone. -/

namespace TextTemplate

theorem Frame.append_pieces (frame : Frame) (target kind : SectionKind) (piece : Piece) :
    ((frame.append target piece).part kind).pieces =
      (frame.part kind).pieces ++ if target = kind then [piece] else [] := by
  cases target <;> cases kind <;> simp [append, recount, setPart, part]

structure Effect where
  entries : List (SectionKind × Piece) := []
  inherits? : Option (String × SourceId × Span) := none
  requiresHost : Bool := false
  parameters : List Parameter := []
  rootFeatureStarted : Bool
  seenTemplateDirective : Bool
  outputExtension? : Option String
  problems : List Problem := []
  references : List AssemblyReference := []
  apart : ∀ entry ∈ entries, entry.1 ≠ .baseClass := by simp

namespace Effect

def change (effect : Effect) (frame : Frame) : Frame :=
  let written := effect.entries.foldl (fun grown entry => grown.append entry.1 entry.2) frame
  let listed := { written with parameterList := written.parameterList ++ effect.parameters }
  let hosted := if effect.requiresHost then listed.markHostRequired else listed
  match effect.inherits? with
  | some (name, source, span) => hosted.captureBaseClass name source span
  | none => hosted

/-- An effect is made of four kinds of change to a frame, and keeps what each of them keeps. -/
theorem change_preserves {Kept : Frame → Prop} (effect : Effect)
    (append : ∀ frame kind piece, kind ≠ .baseClass → Kept frame → Kept (Frame.append frame kind piece))
    (list : ∀ (frame : Frame) parameters, Kept frame → Kept { frame with parameterList := parameters })
    (host : ∀ frame, Kept frame → Kept frame.markHostRequired)
    (capture : ∀ frame name source span, Kept frame → Kept (Frame.captureBaseClass frame name source span))
    {frame : Frame} (kept : Kept frame) : Kept (effect.change frame) := by
  have written (entries : List (SectionKind × Piece)) (apart : ∀ entry ∈ entries, entry.1 ≠ .baseClass)
      (grown : Frame) (keeps : Kept grown) :
      Kept (entries.foldl (fun grown entry => grown.append entry.1 entry.2) grown) := by
    induction entries generalizing grown with
    | nil => exact keeps
    | cons entry rest ih =>
      exact ih (fun other member => apart other (List.mem_cons_of_mem _ member)) _
        (append _ _ entry.2 (apart entry List.mem_cons_self) keeps)
  have entered := written effect.entries effect.apart frame kept
  unfold change
  generalize effect.entries.foldl (fun grown entry => grown.append entry.1 entry.2) frame = grown at entered
  have listed := list grown (grown.parameterList ++ effect.parameters) entered
  cases effect.inherits? with
  | none =>
    cases effect.requiresHost with
    | false => exact listed
    | true => exact host _ listed
  | some captured =>
    cases effect.requiresHost with
    | false => exact capture _ _ _ _ listed
    | true => exact capture _ _ _ _ (host _ listed)

def written (effect : Effect) (kind : SectionKind) : List Piece :=
  (effect.entries.filter fun entry => entry.1 = kind).map Prod.snd

private theorem appended_pieces (entries : List (SectionKind × Piece)) (frame : Frame) (kind : SectionKind) :
    ((entries.foldl (fun grown entry => grown.append entry.1 entry.2) frame).part kind).pieces =
      (frame.part kind).pieces ++ (entries.filter fun entry => entry.1 = kind).map Prod.snd := by
  induction entries generalizing frame with
  | nil => exact (List.append_nil _).symm
  | cons entry rest ih =>
    rw [List.foldl_cons, ih, Frame.append_pieces, List.append_assoc, List.filter_cons]
    split <;> simp_all

def captured (effect : Effect) (frame : Frame) : List Piece :=
  match effect.inherits? with
  | some (name, source, span) => if frame.hasBaseClass then [] else [.mapped name ⟨source, span, .code⟩]
  | none => []

theorem change_pieces (effect : Effect) (frame : Frame) (kind : SectionKind) :
    ((effect.change frame).part kind).pieces = (frame.part kind).pieces ++
      (effect.written kind ++ if kind = .baseClass then effect.captured frame else []) := by
  have hosted (given : Frame) : (if effect.requiresHost then given.markHostRequired else given).part kind =
      given.part kind := by
    cases effect.requiresHost <;> cases kind <;> rfl
  have listed (given : Frame) (parameters : List Parameter) :
      ({ given with parameterList := parameters } : Frame).part kind = given.part kind := by
    cases kind <;> rfl
  have flag (entries : List (SectionKind × Piece)) (given : Frame) :
      (entries.foldl (fun grown entry => grown.append entry.1 entry.2) given).hasBaseClass =
        given.hasBaseClass := by
    induction entries generalizing given with
    | nil => rfl
    | cons entry rest ih =>
      rw [List.foldl_cons, ih]
      obtain ⟨place, piece⟩ := entry
      cases place <;> rfl
  rw [← List.append_assoc, written, ← appended_pieces]
  unfold change captured
  cases effect.inherits? with
  | none => simp only [hosted, listed, ite_self, List.append_nil]
  | some captured =>
    obtain ⟨name, source, span⟩ := captured
    rw [← flag effect.entries frame]
    generalize effect.entries.foldl (fun grown entry => grown.append entry.1 entry.2) frame = grown
    cases effect.requiresHost <;> cases present : grown.hasBaseClass <;> cases kind <;>
      simp [Frame.captureBaseClass, Frame.markHostRequired, Frame.part, present]

theorem adds (effect : Effect) : Frame.Adds effect.change := by
  have written (entries : List (SectionKind × Piece)) (apart : ∀ entry ∈ entries, entry.1 ≠ .baseClass) :
      Frame.Adds fun frame => entries.foldl (fun grown entry => grown.append entry.1 entry.2) frame := by
    induction entries with
    | nil => exact .id
    | cons entry rest ih =>
      exact (Frame.Adds.append (apart entry List.mem_cons_self) entry.2).comp
        (ih fun other member => apart other (List.mem_cons_of_mem _ member))
  have hosted := (written effect.entries effect.apart).comp
    ((Frame.Adds.listParameters effect.parameters).comp (.hostIf effect.requiresHost))
  show Frame.Adds fun frame => effect.change frame
  cases inherited : effect.inherits? with
  | none =>
    simp only [change, inherited]
    exact hosted
  | some captured =>
    simp only [change, inherited]
    exact hosted.comp (.captureBaseClass captured.1 captured.2.1 captured.2.2)

end Effect

namespace Walk

/-- What a walk has seen, as far as it decides the effect of later nodes. -/
structure Alike (first second : Walk) : Prop where
  rootFeatureStarted : first.rootFeatureStarted = second.rootFeatureStarted
  seenTemplateDirective : first.seenTemplateDirective = second.seenTemplateDirective
  outputExtension? : first.outputExtension? = second.outputExtension?

theorem Alike.refl (walk : Walk) : walk.Alike walk := ⟨rfl, rfl, rfl⟩

/-- What was seen decides which values of a directive are trimmed, and so whether there is room for it. -/
theorem Alike.affords {first second : Walk} (alike : first.Alike second) (encounter : Encounter) :
    first.affords encounter = second.affords encounter := by
  cases encounter with
  | directive source given =>
    simp only [Walk.affords, trimmedAttributes, consulted, alike.seenTemplateDirective, alike.outputExtension?]
  | run source texts => rfl
  | code source depth fragment => rfl
  | refused source inclusion complaint => rfl
  | expanded source inclusion target => rfl

def undergo (walk : Walk) (effect : Effect) : Walk :=
  { walk with
    current := effect.change walk.current
    rootFeatureStarted := effect.rootFeatureStarted
    seenTemplateDirective := effect.seenTemplateDirective
    outputExtension? := effect.outputExtension?
    problems := walk.problems ++ effect.problems
    references := walk.references ++ effect.references }

def unaffected (walk : Walk) : Effect where
  rootFeatureStarted := walk.rootFeatureStarted
  seenTemplateDirective := walk.seenTemplateDirective
  outputExtension? := walk.outputExtension?

variable {walk other : Walk}

theorem undergo_unaffected (alike : other.Alike walk) : other.undergo walk.unaffected = other := by
  obtain ⟨started, seen, extension⟩ := alike
  simp [undergo, unaffected, Effect.change, ← started, ← seen, ← extension]

/-- The effect is one a directive of `source` may have: what it writes outside of the transform
method and the class body is fixed text or the value of an attribute. -/
structure Stems (source : SourceId) (given : Directive) (walk : Walk) (effect : Effect) : Prop where
  entries : ∀ entry ∈ effect.entries, (entry.1 = .imports ∨ entry.1 = .parameters) ∧
    (entry.2.origin? = none ∨ ∃ name value, given.value? name = some value ∧
      entry.2 = .mapped value.1 ⟨source, value.2, .code⟩)
  inherits : ∀ captured ∈ effect.inherits?, ∃ name,
    given.value? name = some (captured.1, captured.2.2) ∧ captured.2.1 = source
  started : effect.rootFeatureStarted = walk.rootFeatureStarted

theorem Stems.written_eq_nil {source : SourceId} {given : Directive} {effect : Effect}
    (stems : Stems source given walk effect) {kind : SectionKind} (imports : kind ≠ .imports)
    (parameters : kind ≠ .parameters) : effect.written kind = [] := by
  rw [Effect.written, List.map_eq_nil_iff, List.filter_eq_nil_iff]
  intro entry member placed
  have same : entry.1 = kind := of_decide_eq_true placed
  rcases (stems.entries entry member).1 with place | place
  · exact imports (same.symm.trans place)
  · exact parameters (same.symm.trans place)

variable (walk) (source : SourceId) (given : Directive)

theorem stems_unaffected : Stems source given walk walk.unaffected where
  entries := List.forall_mem_nil _
  inherits _ absent := absurd absent (Option.not_mem_none _)
  started := rfl

private theorem importNamespace_effect : ∃ effect, Stems source given walk effect ∧
    ∀ other : Walk, other.Alike walk → other.importNamespace source given = other.undergo effect := by
  cases found : given.value? "namespace" with
  | none =>
    refine ⟨walk.unaffected, stems_unaffected .., fun other alike => ?_⟩
    rw [undergo_unaffected alike, importNamespace, found]
  | some value =>
    refine ⟨{ walk.unaffected with
      entries := [(.imports, .plain "using "), (.imports, .mapped value.1 ⟨source, value.2, .code⟩),
        (.imports, .plain ";\n")]
      apart := by simp }, ⟨?_, (stems_unaffected walk source given).inherits, rfl⟩, fun other alike => ?_⟩
    · intro entry member
      simp only [List.mem_cons, List.not_mem_nil, or_false] at member
      rcases member with rfl | rfl | rfl
      · exact ⟨.inl rfl, .inl rfl⟩
      · exact ⟨.inl rfl, .inr ⟨_, _, found, rfl⟩⟩
      · exact ⟨.inl rfl, .inl rfl⟩
    · rw [importNamespace, found]
      simp [undergo, unaffected, Effect.change, mapCurrent, Frame.appendAll,
        ← alike.rootFeatureStarted, ← alike.seenTemplateDirective, ← alike.outputExtension?]

private theorem applyTemplate_effect : ∃ effect, Stems source given walk effect ∧
    ∀ other : Walk, other.Alike walk → other.applyTemplate source given = other.undergo effect := by
  cases seen : walk.seenTemplateDirective with
  | true =>
    refine ⟨walk.unaffected, stems_unaffected .., fun other alike => ?_⟩
    rw [undergo_unaffected alike, applyTemplate, alike.seenTemplateDirective, seen, if_pos rfl]
  | false =>
    refine ⟨{ walk.unaffected with
      seenTemplateDirective := true
      inherits? := (given.value? "inherits").map fun value => (value.1, source, value.2)
      requiresHost := (given.value? "hostspecific").any fun host => Text.eqIgnoringCase host.1 "true" },
      ⟨List.forall_mem_nil _, ?_, rfl⟩, fun other alike => ?_⟩
    · intro captured member
      obtain ⟨value, found, rfl⟩ := Option.map_eq_some_iff.mp member
      exact ⟨_, found, rfl⟩
    · rw [applyTemplate, alike.seenTemplateDirective, seen, if_neg Bool.false_ne_true]
      cases given.value? "inherits" <;> cases given.value? "hostspecific" <;>
        simp [undergo, unaffected, Effect.change, mapCurrent,
          ← alike.rootFeatureStarted, ← alike.outputExtension?]

private theorem addParameter_effect : ∃ effect, Stems source given walk effect ∧
    ∀ other : Walk, other.Alike walk → other.addParameter source given = other.undergo effect := by
  cases typed : given.value? "type" with
  | none =>
    refine ⟨walk.unaffected, stems_unaffected .., fun other alike => ?_⟩
    rw [undergo_unaffected alike, addParameter, typed]
  | some typeName =>
    cases named : given.value? "name" with
    | none =>
      refine ⟨walk.unaffected, stems_unaffected .., fun other alike => ?_⟩
      rw [undergo_unaffected alike, addParameter, typed, named]
    | some name =>
      refine ⟨{ walk.unaffected with
        entries := (propertyPieces source typeName name).map (.parameters, ·)
        parameters := [⟨typeName.1, name.1⟩]
        apart := by simp },
        ⟨?_, (stems_unaffected walk source given).inherits, rfl⟩, fun other alike => ?_⟩
      · intro entry member
        obtain ⟨piece, written, rfl⟩ := List.mem_map.mp member
        refine ⟨.inr rfl, ?_⟩
        simp only [propertyPieces, List.mem_append, List.mem_cons, List.not_mem_nil, or_false] at written
        rcases written with ((rfl | rfl | rfl | rfl) | keyword) | rfl | rfl
        · exact .inl rfl
        · exact .inl rfl
        · exact .inr ⟨_, _, typed, rfl⟩
        · exact .inl rfl
        · split at keyword
          · exact .inl (List.mem_singleton.mp keyword ▸ rfl)
          · cases keyword
        · exact .inr ⟨_, _, named, rfl⟩
        · exact .inl rfl
      · rw [addParameter, typed, named]
        simp [undergo, unaffected, Effect.change, mapCurrent, Frame.appendAll, List.foldl_map,
          ← alike.rootFeatureStarted, ← alike.seenTemplateDirective, ← alike.outputExtension?]

private theorem applyOutput_effect : ∃ effect, Stems source given walk effect ∧
    ∀ other : Walk, other.Alike walk → other.applyOutput given = other.undergo effect := by
  cases known : walk.outputExtension? with
  | some extension =>
    refine ⟨walk.unaffected, stems_unaffected .., fun other alike => ?_⟩
    rw [undergo_unaffected alike, applyOutput, alike.outputExtension?, known]
  | none =>
    refine ⟨{ walk.unaffected with outputExtension? := (given.value? "extension").map Prod.fst },
      ⟨List.forall_mem_nil _, (stems_unaffected walk source given).inherits, rfl⟩, fun other alike => ?_⟩
    rw [applyOutput, alike.outputExtension?, known]
    simp [undergo, unaffected, Effect.change, ← alike.rootFeatureStarted, ← alike.seenTemplateDirective]

private theorem addReference_effect (macros : Macros) : ∃ effect, Stems source given walk effect ∧
    ∀ other : Walk, other.Alike walk → other.addReference macros source given = other.undergo effect := by
  cases named : given.value? "name" with
  | none =>
    refine ⟨walk.unaffected, stems_unaffected .., fun other alike => ?_⟩
    rw [undergo_unaffected alike, addReference, named]
  | some name =>
    refine ⟨{ walk.unaffected with references := [⟨macros.expand name.1, source, name.2⟩] },
      ⟨List.forall_mem_nil _, (stems_unaffected walk source given).inherits, rfl⟩, fun other alike => ?_⟩
    rw [addReference, named]
    simp [undergo, unaffected, Effect.change, ← alike.rootFeatureStarted,
      ← alike.seenTemplateDirective, ← alike.outputExtension?]

def complaintEffect (complaint : Complaint) (span : Span) : Effect :=
  { walk.unaffected with problems := [complaint.problem source span] }

theorem complain_effect (complaint : Complaint) (span : Span) (alike : other.Alike walk) :
    other.complain complaint source span =
      other.undergo (walk.complaintEffect source complaint span) := by
  simp [complain, undergo, complaintEffect, unaffected, Effect.change, ← alike.rootFeatureStarted,
    ← alike.seenTemplateDirective, ← alike.outputExtension?]

theorem visitDirective_effect (macros : Macros) : ∃ effect, Stems source given walk effect ∧
    ∀ other : Walk, other.Alike walk → other.visitDirective macros source given = other.undergo effect := by
  have complained (complaint : Complaint) : ∃ effect, Stems source given walk effect ∧
      ∀ other : Walk, other.Alike walk →
        other.complain complaint source given.nameSpan = other.undergo effect :=
    ⟨walk.complaintEffect source complaint given.nameSpan,
      ⟨List.forall_mem_nil _, (stems_unaffected walk source given).inherits, rfl⟩,
      fun _ alike => complain_effect walk source complaint given.nameSpan alike⟩
  unfold visitDirective
  split
  · exact ⟨walk.unaffected, stems_unaffected .., fun other alike => (undergo_unaffected alike).symm⟩
  · split
    · exact complained .bareInclude
    · split
      · exact complained _
      · rename_i rule _ _ _ _
        cases kind : rule.kind with
        | namespaceImport => exact importNamespace_effect walk source given
        | template => exact applyTemplate_effect walk source given
        | parameter => exact addParameter_effect walk source given
        | output => exact applyOutput_effect walk source given
        | assembly => exact addReference_effect walk source given macros
        | inclusion =>
          exact ⟨walk.unaffected, stems_unaffected .., fun other alike => (undergo_unaffected alike).symm⟩

def codeEntries (source : SourceId) (fragment : CodeFragment) (part : SectionKind) :
    List (SectionKind × Piece) :=
  let code := Piece.mapped fragment.code ⟨source, fragment.codeSpan, .code⟩
  if fragment.code.isEmpty then
    []
  else
    match fragment.kind with
    | .expression => [(part, .plain Code.toStringOpening), (part, code), (part, .plain Code.toStringClosing)]
    | .feature => [(.feature, code), (.feature, .plain "\n")]
    | .statement => [(.transformation, code), (.transformation, .plain "\n")]

def startedAfter (walk : Walk) (fragment : CodeFragment) : Bool :=
  if fragment.code.isEmpty then walk.rootFeatureStarted
  else walk.rootFeatureStarted || (fragment.kind == .feature && walk.depth == 0)

private theorem expressionPart_ne_baseClass : walk.expressionPart ≠ .baseClass := by
  unfold expressionPart
  split <;> exact SectionKind.noConfusion

private theorem codeEntries_apart (fragment : CodeFragment) {part : SectionKind} (apart : part ≠ .baseClass) :
    ∀ entry ∈ codeEntries source fragment part, entry.1 ≠ .baseClass := by
  unfold codeEntries
  split
  · exact List.forall_mem_nil _
  · cases fragment.kind <;> simp [apart]

def codeEffect (fragment : CodeFragment) : Effect where
  entries := codeEntries source fragment walk.expressionPart
  rootFeatureStarted := walk.startedAfter fragment
  seenTemplateDirective := walk.seenTemplateDirective
  outputExtension? := walk.outputExtension?
  apart := codeEntries_apart source fragment (expressionPart_ne_baseClass walk)

theorem visitCode_effect (fragment : CodeFragment) (alike : other.Alike walk)
    (level : other.depth = walk.depth) :
    other.visitCode source fragment = other.undergo (walk.codeEffect source fragment) := by
  have routed : other.expressionPart = walk.expressionPart := by
    rw [expressionPart, expressionPart, alike.rootFeatureStarted, level]
  have undergone : other.undergo (walk.codeEffect source fragment) = { other with
      current := (codeEntries source fragment walk.expressionPart).foldl
        (fun grown entry => grown.append entry.1 entry.2) other.current
      rootFeatureStarted := walk.startedAfter fragment } := by
    simp [undergo, Effect.change, codeEffect, ← alike.seenTemplateDirective, ← alike.outputExtension?]
  rw [undergone, visitCode, codeEntries, startedAfter]
  cases fragment.code.isEmpty with
  | true => simp [← alike.rootFeatureStarted]
  | false => cases fragment.kind <;> simp [mapCurrent, Frame.appendAll, routed, level, alike.rootFeatureStarted]

/-- Code goes to the transform method or to the class body, so whoever looks at neither sees no change. -/
theorem visitCode_unseen {View : Type} (view : Frame → View)
    (transformation : ∀ frame piece, view (frame.append .transformation piece) = view frame)
    (feature : ∀ frame piece, view (frame.append .feature piece) = view frame) (fragment : CodeFragment) :
    view (walk.visitCode source fragment).current = view walk.current := by
  have all {kind : SectionKind} (one : ∀ frame piece, view (frame.append kind piece) = view frame)
      (pieces : List Piece) (frame : Frame) : view (frame.appendAll kind pieces) = view frame := by
    induction pieces generalizing frame with
    | nil => rfl
    | cons piece rest ih => exact (ih _).trans (one frame piece)
  unfold visitCode
  split
  · rfl
  · cases fragment.kind with
    | feature => exact all feature _ _
    | statement => exact all transformation _ _
    | expression =>
      show view (walk.current.appendAll walk.expressionPart _) = _
      unfold expressionPart
      split
      · exact all feature _ _
      · exact all transformation _ _

theorem gather_directive (macros : Macros) : ∃ effect, Stems source given walk.check effect ∧
    walk.gather macros (.directive source given) = walk.check.undergo effect := by
  obtain ⟨effect, stems, visited⟩ := visitDirective_effect walk.check source given macros
  exact ⟨effect, stems, visited walk.check (.refl _)⟩

theorem gather_code (macros : Macros) (depth : Nat) (fragment : CodeFragment) :
    walk.gather macros (.code source depth fragment) =
      { walk.check with depth }.undergo (codeEffect { walk.check with depth } source fragment) :=
  visitCode_effect _ source fragment (.refl _) rfl

end Walk

end TextTemplate
