/-!
Macro values and their expansion. Values are kept in the order of their names, each name once,
so two tables with the same values are equal. Expansion replaces every `$(Name)` of a known
name and leaves all else as it stands; a value put in is not expanded again.
-/

namespace TextTemplate

structure Macros where
  entries : List (String × String)
  sorted : entries.Pairwise fun first second => first.1 < second.1

namespace Macros

def empty : Macros := ⟨[], .nil⟩

instance : Inhabited Macros := ⟨empty⟩

instance : DecidableEq Macros := fun left right =>
  decidable_of_iff (left.entries = right.entries)
    ⟨fun same => by cases left; cases right; simp_all, fun same => same ▸ rfl⟩

/-- Entries with the value of one name set, the others as they were. -/
def insertEntry (name value : String) : List (String × String) → List (String × String)
  | [] => [(name, value)]
  | entry :: rest =>
    if name < entry.1 then (name, value) :: entry :: rest
    else if name = entry.1 then (name, value) :: rest
    else entry :: insertEntry name value rest

theorem mem_insertEntry {name value : String} {entries : List (String × String)}
    {entry : String × String} (member : entry ∈ insertEntry name value entries) :
    entry = (name, value) ∨ entry ∈ entries := by
  induction entries with
  | nil => simpa [insertEntry] using member
  | cons first rest ih =>
    simp only [insertEntry] at member
    split at member
    · simpa using member
    · split at member
      · rcases List.mem_cons.mp member with same | later
        · exact .inl same
        · exact .inr (List.mem_cons_of_mem _ later)
      · rcases List.mem_cons.mp member with same | later
        · exact .inr (same ▸ List.mem_cons_self)
        · exact (ih later).imp id (List.mem_cons_of_mem _)

theorem insertEntry_sorted (name value : String) {entries : List (String × String)}
    (sorted : entries.Pairwise fun first second => first.1 < second.1) :
    (insertEntry name value entries).Pairwise fun first second => first.1 < second.1 := by
  induction entries with
  | nil => simp [insertEntry]
  | cons first rest ih =>
    obtain ⟨least, tail⟩ := List.pairwise_cons.mp sorted
    simp only [insertEntry]
    split
    · rename_i below
      refine List.pairwise_cons.mpr ⟨fun entry member => ?_, sorted⟩
      rcases List.mem_cons.mp member with rfl | later
      · exact below
      · exact String.lt_trans below (least entry later)
    · rename_i notBelow
      split
      · rename_i same
        exact List.pairwise_cons.mpr ⟨fun entry member => same ▸ least entry member, tail⟩
      · rename_i different
        refine List.pairwise_cons.mpr ⟨fun entry member => ?_, ih tail⟩
        rcases mem_insertEntry member with rfl | later
        · have above : first.1 ≤ name := String.not_lt.mp notBelow
          exact Decidable.byContradiction fun notAbove =>
            different (String.le_antisymm (String.not_lt.mp notAbove) above)
        · exact least entry later

def insert (macros : Macros) (name value : String) : Macros :=
  ⟨insertEntry name value macros.entries, insertEntry_sorted name value macros.sorted⟩

def find? (macros : Macros) (name : String) : Option String :=
  (macros.entries.find? fun entry => entry.1 = name).map Prod.snd

/-- A table from pairs; of two values for one name the later counts. -/
def ofList (pairs : List (String × String)) : Macros :=
  pairs.foldl (fun macros pair => macros.insert pair.1 pair.2) empty

/-- The table with the values of `other` added for names it does not know. -/
def withDefaults (macros other : Macros) : Macros :=
  other.entries.foldl
    (fun known entry =>
      if (known.find? entry.1).isSome then known else known.insert entry.1 entry.2)
    macros

/-- The characters before the first `)` and those after it. -/
def closing? : List Char → Option (List Char × List Char)
  | [] => none
  | c :: rest =>
    if c = ')' then some ([], rest) else (closing? rest).map fun parts => (c :: parts.1, parts.2)

theorem closing?_length {text name rest : List Char} (found : closing? text = some (name, rest)) :
    rest.length < text.length := by
  induction text generalizing name with
  | nil => simp [closing?] at found
  | cons c tail ih =>
    simp only [closing?] at found
    split at found
    · simp only [Option.some.injEq, Prod.mk.injEq] at found
      simp [found.2]
    · obtain ⟨parts, inner, same⟩ := Option.map_eq_some_iff.mp found
      simp only [Prod.mk.injEq] at same
      have := @ih parts.1 (by rw [inner, ← same.2])
      simp only [List.length_cons]
      omega

/-- A reference in full, as it is left in place when the name is unknown. -/
def reference (name : List Char) : List Char :=
  '$' :: '(' :: name ++ [')']

def expandChars (macros : Macros) : List Char → List Char
  | [] => []
  | '$' :: '(' :: after =>
    match _closed : closing? after with
    | some (name, rest) =>
      ((macros.find? (String.ofList name)).map String.toList).getD (reference name)
        ++ expandChars macros rest
    | none => '$' :: '(' :: after
  | c :: rest => c :: expandChars macros rest
termination_by text => text.length
decreasing_by
  · have := closing?_length ‹_›
    simp only [List.length_cons]
    omega
  · simp

/-- The text with every reference to a known name replaced by its value. -/
def expand (macros : Macros) (text : String) : String :=
  String.ofList (macros.expandChars text.toList)

end Macros

end TextTemplate
