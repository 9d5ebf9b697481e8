import TextTemplate.Proofs.LiteralRuns
import TextTemplate.Proofs.WrittenPieces

/-! Every piece collected from built templates is accounted for: the template of its origin
yields its text. What an encounter writes is so because the encounter stands for nodes of the
template it names, however many includes lead there. -/

namespace TextTemplate

namespace Bundle

theorem find?_self {bundle : Bundle} {source : SourceId} {template : Template}
    (found : bundle.find? source = some template) : bundle.find? template.source = some template := by
  have named : template.source = source := by simpa using List.find?_some found
  rw [named]
  exact found

private theorem find?_of_resolve? {bundle : Bundle} {origin : SourceId} {inclusion : Inclusion} {target : Template}
    (found : bundle.resolve? origin inclusion = some target) : bundle.find? target.source = some target := by
  obtain ⟨source, -, located⟩ := Option.bind_eq_some_iff.mp found
  exact find?_self located

end Bundle

/-- The encounter stands for nodes of the template it names. -/
def Encounter.Found (bundle : Bundle) (encounter : Encounter) : Prop :=
  ∃ template, bundle.find? encounter.source = some template ∧
    ∀ node ∈ encounter.nodes, node ∈ template.nodes

/-- The same, with the nodes one behind the other as they are in the template. -/
def Encounter.Excerpt (bundle : Bundle) (encounter : Encounter) : Prop :=
  ∃ template, bundle.find? encounter.source = some template ∧ encounter.nodes <:+: template.nodes

theorem Encounter.Excerpt.found {bundle : Bundle} {encounter : Encounter} (excerpt : encounter.Excerpt bundle) :
    encounter.Found bundle := by
  obtain ⟨template, home, own⟩ := excerpt
  exact ⟨template, home, fun _ listed => own.subset listed⟩

private theorem Encounter.excerpt_ofHeld {bundle : Bundle} {source : SourceId} {template : Template}
    (home : bundle.find? source = some template) {held : List LiteralText}
    (kept : held.map Node.text <:+: template.nodes) :
    ∀ encounter ∈ ofHeld source held, encounter.Excerpt bundle := by
  intro encounter member
  unfold ofHeld at member
  split at member
  · cases member
  · cases List.mem_singleton.mp member
    exact ⟨template, home, kept⟩

/-- What is held back and a node are stretches of what they end with all that follows; so is what follows. -/
theorem parts_of_suffix {held : List LiteralText} {node : Node} {rest nodes : List Node}
    (own : held.map Node.text ++ node :: rest <:+ nodes) :
    held.map Node.text <:+: nodes ∧ [node] <:+: nodes ∧ rest <:+ nodes := by
  obtain ⟨front, rfl⟩ := own
  refine ⟨⟨front, node :: rest, ?_⟩, ⟨front ++ held.map Node.text, rest, ?_⟩,
    ⟨front ++ held.map Node.text ++ [node], ?_⟩⟩
  all_goals simp only [List.append_assoc, List.cons_append, List.nil_append]

/-- Expanding nodes of a template of the bundle comes upon nodes of its templates only. -/
theorem Session.encounters_excerpt {bundle : Bundle} {session : Session}
    (reach : session.includes = bundle.includes) {sources : OpenSources} {depth : Nat} {source : SourceId}
    {held : List LiteralText} {nodes : List Node} {template : Template}
    (home : bundle.find? source = some template)
    (own : held.map Node.text ++ nodes <:+ template.nodes) :
    ∀ encounter ∈ session.encounters sources depth source held nodes, encounter.Excerpt bundle := by
  have behind {front back : List Encounter} {encounter : Encounter}
      (first : ∀ other ∈ front, other.Excerpt bundle) (here : encounter.Excerpt bundle)
      (later : ∀ other ∈ back, other.Excerpt bundle) :
      ∀ other ∈ front ++ encounter :: back, other.Excerpt bundle :=
    List.forall_mem_append.mpr ⟨first, List.forall_mem_cons.mpr ⟨here, later⟩⟩
  induction sources, depth, source, held, nodes using Session.encounters.induct session
    generalizing template with
  | case1 sources depth source held =>
    rw [encounters]
    rw [List.append_nil] at own
    exact Encounter.excerpt_ofHeld home own.isInfix
  | case2 sources depth source held literal rest ih =>
    rw [encounters]
    refine ih home ?_
    rwa [List.map_append, List.append_assoc]
  | case3 sources depth source held given rest ih =>
    obtain ⟨kept, here, after⟩ := parts_of_suffix own
    rw [encounters]
    exact behind (Encounter.excerpt_ofHeld home kept) ⟨template, home, here⟩ (ih home after)
  | case4 sources depth source held fragment rest ih =>
    obtain ⟨kept, here, after⟩ := parts_of_suffix own
    rw [encounters]
    exact behind (Encounter.excerpt_ofHeld home kept) ⟨template, home, here⟩ (ih home after)
  | case5 sources depth source held reference rest ih inner =>
    obtain ⟨kept, here, after⟩ := parts_of_suffix own
    have later := ih home after
    cases decided : session.expansion sources source reference with
    | unresolved =>
      rw [encounters_unresolved _ _ _ decided]
      exact behind (Encounter.excerpt_ofHeld home kept) ⟨template, home, here⟩ later
    | cyclic target =>
      rw [encounters_cyclic _ _ _ decided]
      exact behind (Encounter.excerpt_ofHeld home kept) ⟨template, home, here⟩ later
    | expand target opened =>
      have resolved := (expansion_eq_expand decided).1
      rw [reach] at resolved
      rw [encounters_expand _ _ _ decided]
      have nested := inner target opened decided (Bundle.find?_of_resolve? resolved) (List.suffix_refl _)
      exact behind (Encounter.excerpt_ofHeld home kept) ⟨template, home, here⟩
        (List.forall_mem_append.mpr ⟨nested, later⟩)

private theorem Encounter.Writes.accounts {bundle : Bundle} (built : bundle.IsBuilt)
    {encounter : Encounter} (found : encounter.Found bundle) {piece : Piece} (writes : encounter.Writes piece) :
    bundle.Accounts piece := by
  obtain ⟨template, home, own⟩ := found
  have known : template ∈ bundle.templates := List.mem_of_find?_eq_some home
  have faithful := built.faithful known
  cases encounter with
  | run source texts =>
    exact Emission.ofTexts_accounts home faithful
      (fun literal member => own _ (List.mem_map_of_mem member)) piece writes
  | directive source given =>
    rcases writes with plain | ⟨name, value, carried, rfl⟩
    · exact bundle.accounts_of_plain plain
    · exact Bundle.accounts_mapped home fun _ => ⟨_, Directive.value?_yields faithful
        (own _ (List.mem_singleton_self _)) carried⟩
  | code source depth fragment =>
    rcases writes with plain | rfl
    · exact bundle.accounts_of_plain plain
    · exact Bundle.accounts_mapped home fun nonempty =>
        ⟨_, fragment.code_yields faithful (own _ (List.mem_singleton_self _)) nonempty⟩
  | refused source reference complaint => cases writes
  | expanded source reference target => cases writes

theorem Session.gathered_accounts {bundle : Bundle} (built : bundle.IsBuilt)
    {session : Session} (reach : session.includes = bundle.includes) {root : Template}
    (home : bundle.find? root.source = some root) {kind : SectionKind} {piece : Piece}
    (member : piece ∈ ((session.gathered root).frame.part kind).pieces) : bundle.Accounts piece := by
  obtain ⟨encounter, listed, writes⟩ := exists_writes member
  have excerpt := encounters_excerpt reach home (List.suffix_refl _) encounter listed
  exact writes.accounts built excerpt.found

end TextTemplate
