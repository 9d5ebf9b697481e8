/-!
Offsets count bytes of UTF-8, while the algorithms of this library run on lists of
characters. Here a list is measured in bytes and cut at a byte offset: `splitWithin` rounds
an offset inside a character down, `splitAt?` refuses it.
-/

namespace TextTemplate.Text

def width : List Char → Nat
  | [] => 0
  | c :: rest => c.utf8Size + width rest

/-- The longest leading part of at most `budget` bytes, and what follows it. -/
def splitWithin : Nat → List Char → List Char × List Char
  | _, [] => ([], [])
  | budget, c :: rest =>
    if c.utf8Size ≤ budget then
      (splitWithin (budget - c.utf8Size) rest).map (c :: ·) id
    else
      ([], c :: rest)

/-- The two parts around byte `offset`, unless it lies inside a character or past the end. -/
def splitAt? (offset : Nat) (text : List Char) : Option (List Char × List Char) :=
  let parts := splitWithin offset text
  if width parts.1 = offset then some parts else none

/-- The characters from byte `start` to byte `stop`, when both fall between characters. -/
def slice? (start stop : Nat) (text : List Char) : Option (List Char) :=
  if start ≤ stop then
    (splitAt? start text).bind fun parts =>
      (splitAt? (stop - start) parts.2).map Prod.fst
  else
    none

@[simp] theorem width_nil : width [] = 0 := rfl

@[simp] theorem width_cons (c : Char) (rest : List Char) :
    width (c :: rest) = c.utf8Size + width rest := rfl

@[simp] theorem width_append (left right : List Char) :
    width (left ++ right) = width left + width right := by
  induction left with
  | nil => simp
  | cons c rest ih => simp [ih, Nat.add_assoc]

theorem splitWithin_append (budget : Nat) (text : List Char) :
    (splitWithin budget text).1 ++ (splitWithin budget text).2 = text := by
  fun_induction splitWithin budget text <;> simp_all

theorem splitWithin_rest_length (budget : Nat) (text : List Char) :
    (splitWithin budget text).2.length ≤ text.length := by
  fun_induction splitWithin budget text <;> simp_all <;> omega

end TextTemplate.Text
