import TextTemplate.Proofs.ChangedBundles
import TextTemplate.Proofs.Transformation

/-! Which code goes to the class body. Once the root has started it, the values written in the root go
there as well; what stands in included templates never has a say. The two sections that take code are
given piece by piece, from what is come upon and in that order. -/

namespace TextTemplate

def Node.code? : Node → Option CodeFragment
  | .code fragment => some fragment
  | _ => none

namespace CodeFragment

/-- Whether the fragment starts the class body, as far as it stands in the root. -/
def opensClass (fragment : CodeFragment) : Bool :=
  !fragment.code.isEmpty && fragment.kind == .feature

/-- Code that is not empty, as it is written into a section. -/
def written (fragment : CodeFragment) : String :=
  match fragment.kind with
  | .expression => "this.Write(this.ToStringHelper.ToStringWithCulture(" ++ fragment.code ++ "));\n"
  | .statement => fragment.code ++ "\n"
  | .feature => fragment.code ++ "\n"

/-- The pieces it is written in. The code itself is traced to its range, unless that is empty. -/
def pieces (source : SourceId) (fragment : CodeFragment) : List Piece :=
  let code : Piece := ⟨fragment.code,
    if fragment.codeSpan.stop ≤ fragment.codeSpan.start then none else some ⟨source, fragment.codeSpan, .code⟩⟩
  match fragment.kind with
  | .expression => [⟨"this.Write(this.ToStringHelper.ToStringWithCulture(", none⟩, code, ⟨"));\n", none⟩]
  | .statement => [code, ⟨"\n", none⟩]
  | .feature => [code, ⟨"\n", none⟩]

private theorem join_pieces (source : SourceId) (fragment : CodeFragment) :
    String.join ((fragment.pieces source).map Piece.text) = fragment.written := by
  unfold pieces written
  cases fragment.kind with
  | expression => simp [String.append_assoc]
  | statement => simp
  | feature => simp

private theorem mapped_code (source : SourceId) {fragment : CodeFragment} (code : fragment.code.isEmpty = false) :
    Piece.mapped fragment.code ⟨source, fragment.codeSpan, .code⟩ = ⟨fragment.code,
      if fragment.codeSpan.stop ≤ fragment.codeSpan.start then none else some ⟨source, fragment.codeSpan, .code⟩⟩ := by
  unfold Piece.mapped Span.isEmpty
  rw [code, Bool.false_or]
  by_cases empty : fragment.codeSpan.stop ≤ fragment.codeSpan.start
  · rw [if_pos empty, if_pos (decide_eq_true empty)]
    rfl
  · rw [if_neg empty, if_neg (by simpa using empty)]

end CodeFragment

namespace Encounter

def isOwnCode : Encounter → Bool
  | .code _ depth _ => depth == 0
  | _ => false

def opensClass : Encounter → Bool
  | .code _ depth fragment => fragment.opensClass && depth == 0
  | _ => false

/-- The section for code with `depth` includes around it, behind the encounters in `front`. -/
def home (front : List Encounter) (depth : Nat) : CodeKind → SectionKind
  | .statement => .transformation
  | .feature => .feature
  | .expression => if front.any opensClass && depth == 0 then .feature else .transformation

/-- What an encounter behind those in `front` adds to one of the sections that take code. -/
def placed (front : List Encounter) (kind : SectionKind) : Encounter → List Piece
  | .run source texts => if kind = .transformation then (Emission.ofTexts source texts).pieces else []
  | .code source depth fragment =>
    if fragment.code.isEmpty = false ∧ home front depth fragment.kind = kind then fragment.pieces source else []
  | _ => []

end Encounter

/-- What encounters add, each behind those in `front` and those before it. -/
def placedFrom (kind : SectionKind) (front : List Encounter) : List Encounter → List Piece
  | [] => []
  | encounter :: rest => encounter.placed front kind ++ placedFrom kind (front ++ [encounter]) rest

/-- The code of the class body: features and the values that belong there, as they are written. -/
def classCode (front : List Encounter) : List Encounter → String
  | [] => ""
  | .code source depth fragment :: rest =>
    (if fragment.code.isEmpty = false ∧ Encounter.home front depth fragment.kind = .feature
      then fragment.written else "") ++ classCode (front ++ [.code source depth fragment]) rest
  | encounter :: rest => classCode (front ++ [encounter]) rest

private theorem join_placed_feature (front encounters : List Encounter) :
    String.join ((placedFrom .feature front encounters).map Piece.text) = classCode front encounters := by
  induction encounters generalizing front with
  | nil => rfl
  | cons encounter rest ih =>
    rw [placedFrom, List.map_append, String.join_append, ih]
    cases encounter with
    | code source depth fragment =>
      rw [classCode, Encounter.placed, apply_ite (List.map Piece.text), apply_ite String.join,
        CodeFragment.join_pieces]
      rfl
    | run source texts => exact String.empty_append
    | directive source given => exact String.empty_append
    | refused source inclusion complaint => exact String.empty_append
    | expanded source inclusion target => exact String.empty_append

private theorem Encounter.startsFeature_eq (started : Bool) (encounter : Encounter) :
    encounter.startsFeature started = (started || encounter.opensClass) := by
  cases encounter with
  | code source depth fragment => rfl
  | _ => exact (Bool.or_false started).symm

namespace Walk

private theorem filter_entries (part kind : SectionKind) (pieces : List Piece) :
    ((pieces.map fun piece => (part, piece)).filter fun entry => entry.1 = kind).map Prod.snd =
      if part = kind then pieces else [] := by
  rw [List.filter_map, List.map_map]
  split
  next same =>
    have all :
        pieces.filter ((fun entry : SectionKind × Piece => decide (entry.1 = kind)) ∘ fun piece => (part, piece)) =
        pieces := List.filter_eq_self.mpr fun _ _ => decide_eq_true same
    rw [all]
    exact List.map_id pieces
  next other =>
    rw [List.map_eq_nil_iff, List.filter_eq_nil_iff]
    exact fun _ _ same => other (of_decide_eq_true same)

private theorem codeEntries_home (front : List Encounter) (source : SourceId) (depth : Nat) (fragment : CodeFragment) :
    codeEntries source fragment (Encounter.home front depth .expression) =
      if fragment.code.isEmpty = true then []
      else (fragment.pieces source).map fun piece => (Encounter.home front depth fragment.kind, piece) := by
  unfold codeEntries CodeFragment.pieces
  split
  · rfl
  next code =>
    rw [CodeFragment.mapped_code source (Bool.eq_false_iff.mpr code)]
    cases fragment.kind with
    | statement => rfl
    | expression => rfl
    | feature => rfl

private theorem codeEntries_placed (front : List Encounter) (source : SourceId) (depth : Nat) (fragment : CodeFragment)
    (kind : SectionKind) :
    ((codeEntries source fragment (Encounter.home front depth .expression)).filter
        fun entry => entry.1 = kind).map Prod.snd =
      (Encounter.code source depth fragment).placed front kind := by
  rw [codeEntries_home, Encounter.placed]
  cases fragment.code.isEmpty with
  | true =>
    rw [if_pos rfl, if_neg fun both => Bool.noConfusion both.1]
    rfl
  | false =>
    rw [if_neg Bool.false_ne_true, filter_entries]
    simp only [true_and]

private theorem gather_placed (macros : Macros) {walk : Walk} {front : List Encounter}
    (begun : front.any Encounter.opensClass = walk.rootFeatureStarted) (encounter : Encounter) {kind : SectionKind}
    (takes : kind = .transformation ∨ kind = .feature) :
    ((walk.gather macros encounter).current.part kind).pieces =
      (walk.current.part kind).pieces ++ encounter.placed front kind := by
  obtain ⟨imports, parameters, baseClass⟩ : kind ≠ .imports ∧ kind ≠ .parameters ∧ kind ≠ .baseClass := by
    rcases takes with rfl | rfl
    · exact ⟨SectionKind.noConfusion, SectionKind.noConfusion, SectionKind.noConfusion⟩
    · exact ⟨SectionKind.noConfusion, SectionKind.noConfusion, SectionKind.noConfusion⟩
  have changed (effect : Effect) : ((effect.change walk.current).part kind).pieces =
      (walk.current.part kind).pieces ++ effect.written kind := by
    rw [Effect.change_pieces, if_neg baseClass, List.append_nil]
  cases encounter with
  | run source texts =>
    rcases takes with rfl | rfl
    · rfl
    · exact (List.append_nil _).symm
  | refused source inclusion complaint => exact (List.append_nil _).symm
  | expanded source inclusion target => exact (List.append_nil _).symm
  | directive source given =>
    obtain ⟨effect, stems, visited⟩ := gather_directive walk source given macros
    rw [visited]
    exact (changed effect).trans (congrArg _ (stems.written_eq_nil imports parameters))
  | code source depth fragment =>
    rw [gather_code, ← codeEntries_placed, Encounter.home, begun]
    exact changed _

private theorem gatherAll_placed (macros : Macros) {walk : Walk} {front : List Encounter}
    (begun : front.any Encounter.opensClass = walk.rootFeatureStarted) (encounters : List Encounter)
    {kind : SectionKind} (takes : kind = .transformation ∨ kind = .feature) :
    ((encounters.foldl (gather macros) walk).current.part kind).pieces =
      (walk.current.part kind).pieces ++ placedFrom kind front encounters := by
  induction encounters generalizing walk front with
  | nil => exact (List.append_nil _).symm
  | cons encounter rest ih =>
    have later : (front ++ [encounter]).any Encounter.opensClass =
        (walk.gather macros encounter).rootFeatureStarted := by
      rw [gather_started, Encounter.startsFeature_eq, ← begun, List.any_append, List.any_cons, List.any_nil,
        Bool.or_false]
    rw [List.foldl_cons, ih later, gather_placed macros begun encounter takes, List.append_assoc]
    rfl

end Walk

private theorem Node.code?_eq_some {node : Node} {fragment : CodeFragment} (code : node.code? = some fragment) :
    node = .code fragment := by
  cases node with
  | code own => exact congrArg Node.code (Option.some.inj code)
  | text literal => cases code
  | directive given => cases code
  | inclusion inclusion => cases code

namespace Encounter
variable {source : SourceId} {front : List Encounter}

private theorem isOwnCode_of_opensClass {encounter : Encounter} (opens : encounter.opensClass = true) :
    encounter.isOwnCode = true := by
  cases encounter with
  | code source depth fragment => exact (Bool.and_eq_true_iff.mp opens).2
  | _ => cases opens

private theorem filter_own (source : SourceId) (fragments : List CodeFragment) :
    (fragments.map (code source 0)).filter isOwnCode = fragments.map (code source 0) := by
  rw [List.filter_eq_self]
  intro encounter member
  obtain ⟨fragment, -, rfl⟩ := List.mem_map.mp member
  rfl

private theorem filter_included (source : SourceId) (depth : Nat) (fragments : List CodeFragment) :
    (fragments.map (code source (depth + 1))).filter isOwnCode = [] := by
  rw [List.filter_eq_nil_iff]
  intro encounter member own
  obtain ⟨fragment, -, rfl⟩ := List.mem_map.mp member
  cases own

private theorem filter_ofHeld (held : List LiteralText) : (ofHeld source held).filter isOwnCode = [] := by
  unfold ofHeld
  split
  · rfl
  · rfl

private theorem home_iff {before : List Node}
    (own : front.filter isOwnCode = (before.filterMap Node.code?).map (code source 0)) :
    home front 0 .expression = .feature ↔ ∃ earlier, .code earlier ∈ before ∧ earlier.opensClass = true := by
  have started : home front 0 .expression = .feature ↔ front.any opensClass = true := by
    unfold home
    cases front.any opensClass with
    | true => exact iff_of_true rfl rfl
    | false => exact iff_of_false SectionKind.noConfusion Bool.false_ne_true
  rw [started, List.any_eq_true]
  constructor
  · rintro ⟨encounter, member, opens⟩
    have listed : encounter ∈ front.filter isOwnCode :=
      List.mem_filter.mpr ⟨member, isOwnCode_of_opensClass opens⟩
    rw [own] at listed
    obtain ⟨earlier, fragment, rfl⟩ := List.mem_map.mp listed
    obtain ⟨node, written, code⟩ := List.mem_filterMap.mp fragment
    exact ⟨earlier, Node.code?_eq_some code ▸ written, (Bool.and_eq_true_iff.mp opens).1⟩
  · rintro ⟨earlier, written, opens⟩
    have listed : code source 0 earlier ∈ front.filter isOwnCode := by
      rw [own]
      exact List.mem_map_of_mem (List.mem_filterMap.mpr ⟨_, written, rfl⟩)
    exact ⟨_, (List.mem_filter.mp listed).1, Bool.and_eq_true_iff.mpr ⟨opens, rfl⟩⟩

end Encounter

namespace Session
variable {session : Session} {sources : OpenSources} {source : SourceId}

private theorem filter_sighting (depth : Nat) (node : Node) :
    [session.sighting sources depth source node].filter Encounter.isOwnCode =
      (node.code?.toList.map (.code source depth)).filter Encounter.isOwnCode := by
  cases node with
  | text literal => rfl
  | directive given => rfl
  | code fragment => rfl
  | inclusion inclusion =>
    cases decided : session.expansion sources source inclusion with
    | unresolved =>
      simp only [sighting, decided]
      rfl
    | cyclic target =>
      simp only [sighting, decided]
      rfl
    | expand target opened =>
      simp only [sighting, decided]
      rfl

private theorem filter_encounters (depth : Nat) (held : List LiteralText) (nodes : List Node) :
    (session.encounters sources depth source held nodes).filter Encounter.isOwnCode =
      ((nodes.filterMap Node.code?).map (.code source depth)).filter Encounter.isOwnCode := by
  induction sources, source, nodes using Includes.visits.induct session.includes generalizing depth held with
  | case1 sources source =>
    rw [encounters, Encounter.filter_ofHeld]
    rfl
  | case2 sources source node rest inner ih =>
    have first : (node :: rest).filterMap Node.code? = node.code?.toList ++ rest.filterMap Node.code? := by
      cases node with
      | _ => rfl
    by_cases textual : node.isText = true
    · obtain ⟨literal, rfl⟩ := Node.exists_text textual
      rw [encounters, ih]
      rfl
    · have nontext := Bool.eq_false_iff.mpr textual
      rw [first, List.map_append, List.filter_append, ← filter_sighting, ← ih depth []]
      cases expanded : session.includes.expanded? sources source node with
      | none =>
        rw [encounters_cons_plain nontext expanded, List.filter_append, Encounter.filter_ofHeld, List.nil_append,
          ← List.singleton_append, List.filter_append]
      | some pair =>
        obtain ⟨target, opened⟩ := pair
        have inside := inner target opened expanded (depth + 1) []
        rw [Encounter.filter_included] at inside
        rw [encounters_cons_expanded expanded, List.filter_append, Encounter.filter_ofHeld, List.nil_append,
          ← List.singleton_append, List.filter_append, List.filter_append, inside, List.nil_append]

end Session

/-- The transform method and the class body consist of what is placed in them, in the order in which it is
come upon, and the class body is that code as it is written. Without an include around it, exactly the code
of the root is come upon, and a value there goes to the class body exactly if code in the root before it has
started that. There are no sections only where a sum of offsets overflows, at a place that it is taken for. -/
theorem Session.collect_placed (includes : Includes) (macros : Macros) (root : Template) :
    let session : Session := ⟨includes, macros, neverCancelled⟩
    let visits := session.encountersOf root
    (match session.collect root with
      | .ok collected =>
        collected.frame.transformation.pieces = placedFrom .transformation [] visits ∧
        collected.frame.feature.pieces = placedFrom .feature [] visits ∧
        collected.frame.feature.render = classCode [] visits
      | .error interruption => interruption = .overflow ∧ ∃ span, session.Takes root span ∧ ¬span.IsWord) ∧
    visits.filter Encounter.isOwnCode = (root.nodes.filterMap Node.code?).map (.code root.source 0) ∧
    ∀ before fragment after, root.nodes = before ++ .code fragment :: after →
      ∃ front back, visits = front ++ .code root.source 0 fragment :: back ∧
        front.filter Encounter.isOwnCode = (before.filterMap Node.code?).map (.code root.source 0) ∧
        (Encounter.home front 0 .expression = .feature ↔
          ∃ earlier, .code earlier ∈ before ∧ earlier.opensClass = true) := by
  intro session visits
  have begun : ([] : List Encounter).any Encounter.opensClass = (Walk.start root.source).rootFeatureStarted := rfl
  have own : visits.filter Encounter.isOwnCode = (root.nodes.filterMap Node.code?).map (.code root.source 0) :=
    (filter_encounters 0 [] root.nodes).trans (Encounter.filter_own _ _)
  have collects := collect_calm (fun _ => rfl : ∀ check, session.cancelled check = false) root
  refine ⟨?_, own, ?_⟩
  · rw [collects]
    cases room : session.fits root with
    | false => exact ⟨rfl, fits_eq_false_iff.mp room⟩
    | true =>
      have feature := Walk.gatherAll_placed macros begun visits (.inr rfl)
      refine ⟨Walk.gatherAll_placed macros begun visits (.inl rfl), feature, ?_⟩
      rw [← join_placed_feature, ← List.nil_append (placedFrom .feature [] visits)]
      exact congrArg (fun pieces => String.join (pieces.map Piece.text)) feature
  · intro before fragment after split
    rw [split, List.filterMap_append, List.map_append] at own
    obtain ⟨left, right, parted, kept, later⟩ := List.filter_eq_append_iff.mp own
    obtain ⟨gap, back, rest, dropped, -, -⟩ := List.filter_eq_cons_iff.mp later
    have front : (left ++ gap).filter Encounter.isOwnCode =
        (before.filterMap Node.code?).map (.code root.source 0) := by
      rw [List.filter_append, kept, List.filter_eq_nil_iff.mpr dropped, List.append_nil]
    exact ⟨left ++ gap, back, by rw [parted, rest, List.append_assoc], front, Encounter.home_iff front⟩

end TextTemplate
