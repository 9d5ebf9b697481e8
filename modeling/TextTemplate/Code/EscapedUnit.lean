import TextTemplate.Code.StringLiteral

/-!
The body of a string literal cut into units, each one escape or one character, and the offsets
where units begin on both sides: in the literal, and in the text it denotes.
-/

namespace TextTemplate.Code

/-- The first unit of a literal and what follows it. A `\u` takes the next four bytes with it,
less if they end inside a character. -/
def splitUnit : List Char → List Char × List Char
  | '\\' :: 'u' :: after =>
    (Text.splitWithin 4 after).map (fun digits => '\\' :: 'u' :: digits) id
  | '\\' :: c :: rest => (['\\', c], rest)
  | c :: rest => ([c], rest)
  | [] => ([], [])

theorem splitUnit_rest_length (c : Char) (rest : List Char) :
    (splitUnit (c :: rest)).2.length < (c :: rest).length := by
  unfold splitUnit
  split
  · rename_i after shape
    have := Text.splitWithin_rest_length 4 after
    simp only [shape, Prod.map_snd, id_eq, List.length_cons]
    omega
  · rename_i shape
    rw [shape]
    simp only [List.length_cons]
    omega
  · rename_i shape
    simp [shape]
  · rename_i shape
    cases shape

/-- The offsets in the literal and in its text at every start of a unit, and at the end, given
those of the first unit. -/
def unitOffsetsFrom (written read : Nat) : List Char → List (Nat × Nat)
  | [] => [(written, read)]
  | c :: rest =>
    (written, read) ::
      unitOffsetsFrom (written + Text.width (splitUnit (c :: rest)).1)
        (read + Text.width (unescapeChars (splitUnit (c :: rest)).1))
        (splitUnit (c :: rest)).2
termination_by literal => literal.length
decreasing_by exact splitUnit_rest_length c rest

def unitOffsets (literal : List Char) : List (Nat × Nat) :=
  unitOffsetsFrom 0 0 literal

end TextTemplate.Code
