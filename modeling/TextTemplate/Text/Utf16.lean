import TextTemplate.Text.Width

/-!
Offsets in UTF-16 units, the measure editors use. A character above the basic plane takes
two units, any other takes one.
-/

namespace TextTemplate.Text

def unitsOf (c : Char) : Nat :=
  if 0x10000 ≤ c.toNat then 2 else 1

def units : List Char → Nat
  | [] => 0
  | c :: rest => unitsOf c + units rest

/-- The UTF-16 offset of byte `offset`, rounded down to a character and cut off at the end. -/
def utf16Offset (text : String) (offset : Nat) : Nat :=
  units (splitWithin offset text.toList).1

@[simp] theorem units_append (left right : List Char) :
    units (left ++ right) = units left + units right := by
  induction left with
  | nil => simp [units]
  | cons c rest ih => simp [units, ih, Nat.add_assoc]

end TextTemplate.Text
