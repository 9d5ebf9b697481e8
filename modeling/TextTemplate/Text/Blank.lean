/-!
Blank characters and trimming. Blank means the Unicode property White_Space, so a value made
of ideographic or no-break spaces is as empty as one made of ASCII spaces.
-/

namespace TextTemplate.Text

/-- The ranges of code points with the Unicode property White_Space. -/
def blankRanges : List (Nat × Nat) :=
  [(0x0009, 0x000d), (0x0020, 0x0020), (0x0085, 0x0085), (0x00a0, 0x00a0), (0x1680, 0x1680),
   (0x2000, 0x200a), (0x2028, 0x2029), (0x202f, 0x202f), (0x205f, 0x205f), (0x3000, 0x3000)]

def isBlank (c : Char) : Bool :=
  blankRanges.any fun range => range.1 ≤ c.toNat && c.toNat ≤ range.2

def trimStart (text : List Char) : List Char :=
  text.dropWhile isBlank

def trimEnd (text : List Char) : List Char :=
  (text.reverse.dropWhile isBlank).reverse

def trim (text : List Char) : List Char :=
  trimEnd (trimStart text)

/-- The trimmed text, or nothing when only blanks are left. -/
def nonBlank? (text : String) : Option String :=
  let trimmed := trim text.toList
  if trimmed.isEmpty then none else some (String.ofList trimmed)

end TextTemplate.Text
