import TextTemplate.Collect

/-! What a walk comes upon, as one list. Every include that is expanded is followed by what its
target contains, so the list has no nesting left, and appending it to a single frame needs
neither a stack nor a literal state. -/

namespace TextTemplate

inductive Encounter where
  /-- Text nodes with nothing between them, and nothing but text left out around them. -/
  | run (source : SourceId) (texts : List LiteralText)
  | directive (source : SourceId) (given : Directive)
  | code (source : SourceId) (depth : Nat) (fragment : CodeFragment)
  | refused (source : SourceId) (inclusion : Inclusion) (complaint : Complaint)
  | expanded (source : SourceId) (inclusion : Inclusion) (target : SourceId)
  deriving DecidableEq, Repr, Inhabited

namespace Encounter

/-- The run of text nodes held back so far, unless there are none. -/
def ofHeld (source : SourceId) (held : List LiteralText) : List Encounter :=
  if held.isEmpty then [] else [.run source held]

/-- The template an encounter comes from, and, below, the nodes of it that it stands for. -/
def source : Encounter → SourceId
  | .run source _ => source
  | .directive source _ => source
  | .code source _ _ => source
  | .refused source _ _ => source
  | .expanded source _ _ => source

def nodes : Encounter → List Node
  | .run _ texts => texts.map .text
  | .directive _ given => [.directive given]
  | .code _ _ fragment => [.code fragment]
  | .refused _ reference _ => [.inclusion reference]
  | .expanded _ reference _ => [.inclusion reference]

def content : Encounter → String
  | .run _ texts => String.join (texts.map LiteralText.content)
  | _ => ""

def run? : Encounter → Option (SourceId × List LiteralText)
  | .run source texts => some (source, texts)
  | _ => none

end Encounter

namespace Session

/-- The encounters of nodes of `source`, reached through the open `sources`, after the text
nodes `held`. -/
def encounters (session : Session) (sources : OpenSources) (depth : Nat) (source : SourceId)
    (held : List LiteralText) (nodes : List Node) : List Encounter :=
  match nodes with
  | [] => Encounter.ofHeld source held
  | .text literal :: rest => encounters session sources depth source (held ++ [literal]) rest
  | .directive given :: rest =>
    Encounter.ofHeld source held ++
      .directive source given :: encounters session sources depth source [] rest
  | .code fragment :: rest =>
    Encounter.ofHeld source held ++
      .code source depth fragment :: encounters session sources depth source [] rest
  | .inclusion inclusion :: rest =>
    Encounter.ofHeld source held ++
      match _decided : session.expansion sources source inclusion with
      | .unresolved =>
        .refused source inclusion (.unresolved inclusion.file) ::
          encounters session sources depth source [] rest
      | .cyclic target =>
        .refused source inclusion (.cyclic target.source) ::
          encounters session sources depth source [] rest
      | .expand target opened =>
        .expanded source inclusion target.source ::
          (encounters session opened (depth + 1) target.source [] target.nodes ++
            encounters session sources depth source [] rest)
termination_by (session.includes.unopened sources, nodes.length)
decreasing_by
  all_goals first
    | exact Prod.Lex.right _ (Nat.lt_succ_self _)
    | exact Prod.Lex.left _ _ (unopened_lt_of_expand ‹_›)

section
variable {session : Session} {sources : OpenSources} {source : SourceId} {inclusion : Inclusion}

theorem encounters_unresolved (depth : Nat) (held : List LiteralText) (rest : List Node)
    (decided : session.expansion sources source inclusion = .unresolved) :
    session.encounters sources depth source held (.inclusion inclusion :: rest) =
      Encounter.ofHeld source held ++
        .refused source inclusion (.unresolved inclusion.file) ::
          session.encounters sources depth source [] rest := by
  rw [encounters, decided]

theorem encounters_cyclic {target : Template} (depth : Nat) (held : List LiteralText) (rest : List Node)
    (decided : session.expansion sources source inclusion = .cyclic target) :
    session.encounters sources depth source held (.inclusion inclusion :: rest) =
      Encounter.ofHeld source held ++
        .refused source inclusion (.cyclic target.source) ::
          session.encounters sources depth source [] rest := by
  rw [encounters, decided]

theorem encounters_expand {target : Template} {opened : OpenSources} (depth : Nat)
    (held : List LiteralText) (rest : List Node)
    (decided : session.expansion sources source inclusion = .expand target opened) :
    session.encounters sources depth source held (.inclusion inclusion :: rest) =
      Encounter.ofHeld source held ++
        .expanded source inclusion target.source ::
          (session.encounters opened (depth + 1) target.source [] target.nodes ++
            session.encounters sources depth source [] rest) := by
  rw [encounters, decided]

end

def encountersOf (session : Session) (root : Template) : List Encounter :=
  session.encounters ⟨[root.source]⟩ 0 root.source [] root.nodes

end Session

def Emission.ofTexts (source : SourceId) (texts : List LiteralText) : Emission :=
  ((texts.foldl LiteralState.consume .atStart).flush .endOfInput source).2

def Walk.gather (macros : Macros) (walk : Walk) : Encounter → Walk
  | .run source texts =>
    { walk with checks := walk.checks + texts.length }.mapCurrent
      fun frame => frame.appendEmission (Emission.ofTexts source texts)
  | .directive source given => walk.check.visitDirective macros source given
  | .code source depth fragment => { walk.check with depth }.visitCode source fragment
  | .refused source inclusion complaint => walk.check.complain complaint source inclusion.blameSpan
  | .expanded _ _ _ => walk.check

def Walk.affords (walk : Walk) : Encounter → Bool
  | .run source texts => (Emission.ofTexts source texts).fits
  | .directive _ given => given.fits (walk.trimmedAttributes given)
  | .code _ _ _ => true
  | .refused _ _ _ => true
  | .expanded _ _ _ => true

def Walk.affordsAll (macros : Macros) : Walk → List Encounter → Bool
  | _, [] => true
  | walk, encounter :: rest =>
    walk.affords encounter && (walk.gather macros encounter).affordsAll macros rest

theorem Walk.affordsAll_append (macros : Macros) (walk : Walk) (front back : List Encounter) :
    walk.affordsAll macros (front ++ back) =
      (walk.affordsAll macros front && (front.foldl (gather macros) walk).affordsAll macros back) := by
  induction front generalizing walk with
  | nil => rfl
  | cons encounter rest ih =>
    rw [List.cons_append, affordsAll, affordsAll, ih, List.foldl_cons, Bool.and_assoc]

theorem Walk.affords_ofHeld (macros : Macros) (walk : Walk) (source : SourceId) (held : List LiteralText) :
    walk.affordsAll macros (Encounter.ofHeld source held) = (Emission.ofTexts source held).fits := by
  cases held with
  | nil => rfl
  | cons literal rest => exact Bool.and_true _

/-- Whether a root and its includes can be collected without an overflow. -/
def Session.fits (session : Session) (root : Template) : Bool :=
  (Walk.start root.source).affordsAll session.macros (session.encountersOf root)

/-- What a root and its includes come to when everything is appended to a single frame. -/
def Session.gathered (session : Session) (root : Template) : Collected :=
  let walk := (session.encountersOf root).foldl (Walk.gather session.macros) (Walk.start root.source)
  { frame := walk.current
    problems := walk.problems
    references := walk.references
    outputExtension? := walk.outputExtension?
    checks := walk.checks }

end TextTemplate
