import TextTemplate.Template

/-!
The sources being expanded. A source may be entered only while it is not open, so includes
that lead back to themselves are found out at the first return.
-/

namespace TextTemplate

structure OpenSources where
  chain : List SourceId := []
  deriving DecidableEq, Repr, Inhabited

namespace OpenSources

def depth (sources : OpenSources) : Nat :=
  sources.chain.length

def isOpen (sources : OpenSources) (source : SourceId) : Bool :=
  sources.chain.contains source

/-- Opens a source; one that is open already is refused. -/
def enter? (sources : OpenSources) (source : SourceId) : Option OpenSources :=
  if sources.isOpen source then none else some ⟨source :: sources.chain⟩

def exit (sources : OpenSources) : OpenSources :=
  ⟨sources.chain.tail⟩

theorem enter?_eq_some_iff {sources opened : OpenSources} {source : SourceId} :
    sources.enter? source = some opened ↔
      sources.isOpen source = false ∧ opened = ⟨source :: sources.chain⟩ := by
  unfold enter?
  split
  · rename_i inside
    exact ⟨nofun, fun closed => absurd (inside.symm.trans closed.1) nofun⟩
  · rename_i outside
    have closed := Bool.eq_false_iff.mpr outside
    exact ⟨fun entered => ⟨closed, (Option.some.inj entered).symm⟩, fun stated => stated.2 ▸ rfl⟩

theorem exit_of_enter? {sources opened : OpenSources} {source : SourceId}
    (entered : sources.enter? source = some opened) : opened.exit = sources := by
  rw [(enter?_eq_some_iff.mp entered).2]
  rfl

end OpenSources

end TextTemplate
