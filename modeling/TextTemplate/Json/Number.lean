/-!
Number literals of JSON. A literal is kept as it is written; here it is taken apart and read.
-/

namespace TextTemplate.Json

structure Decimal where
  negative : Bool
  /-- The digits before the point; no zero stands before another digit. -/
  whole : List Char
  fraction : List Char
  exponent? : Option (Bool × List Char)
  plain : Bool
  deriving DecidableEq, Repr, Inhabited

namespace Decimal

/-- Digits in front of a text, at least one, and what follows them. -/
def digits? (text : List Char) : Option (List Char × List Char) :=
  let digits := text.takeWhile Char.isDigit
  if digits.isEmpty then none else some (digits, text.dropWhile Char.isDigit)

/-- A sign in front of a text, true for minus, and what follows it. -/
def splitSign : List Char → Bool × List Char
  | '-' :: rest => (true, rest)
  | '+' :: rest => (false, rest)
  | text => (false, text)

def fraction? : List Char → Option (List Char × List Char)
  | '.' :: rest => digits? rest
  | text => some ([], text)

def exponentOf? : List Char → Option (Option (Bool × List Char))
  | [] => some none
  | mark :: rest =>
    if mark = 'e' ∨ mark = 'E' then
      let signed := splitSign rest
      (digits? signed.2).bind fun parts =>
        if parts.2.isEmpty then some (some (signed.1, parts.1)) else none
    else
      none

/-- The parts of a literal, or nothing when the text is not one. -/
def ofLiteral? (literal : List Char) : Option Decimal :=
  let unsigned := match literal with
    | '-' :: rest => rest
    | text => text
  (digits? unsigned).bind fun whole =>
    if whole.1.head? = some '0' ∧ whole.1.length > 1 then
      none
    else
      (fraction? whole.2).bind fun fraction =>
        (exponentOf? fraction.2).map fun exponent? =>
          { negative := literal.head? = some '-'
            whole := whole.1
            fraction := fraction.1
            exponent? := exponent?
            plain := whole.2.isEmpty }

def natural? (decimal : Decimal) : Option Nat :=
  if decimal.plain && !decimal.negative then some (Nat.ofDigitChars 10 decimal.whole 0) else none

/-- Appends digits to a number as long as it fits into 64 bits; the digits from the first that
does not fit are left over. -/
def absorb (number : Nat) : List Char → Nat × List Char
  | [] => (number, [])
  | digit :: rest =>
    let next := number * 10 + (digit.toNat - '0'.toNat)
    if next < Nat.pow 2 64 then absorb next rest else (number, digit :: rest)

def exponent (decimal : Decimal) : Int :=
  match decimal.exponent? with
  | some (negative, digits) =>
    let size := Nat.ofDigitChars 10 digits 0
    if negative then -(size : Int) else size
  | none => 0

/-- The number as leading digits times a power of ten. Digits beyond 64 bits are dropped; those
of the whole part count in the power. -/
def scientific (decimal : Decimal) : Nat × Int :=
  let whole := absorb 0 decimal.whole
  let all := absorb whole.1 decimal.fraction
  let places := decimal.fraction.length - all.2.length
  (all.1, decimal.exponent + whole.2.length - places)

/-- The double nearest to a whole number; of two equally near ones the even. -/
def nearestDouble (number : Nat) : Nat :=
  let unit := Nat.pow 2 (number.log2 - 52)
  let below := number / unit
  let excess := 2 * (number % unit)
  if excess > unit ∨ (excess = unit ∧ below % 2 = 1) then (below + 1) * unit else below * unit

/-- The least number that is too large for a double after rounding. -/
def doubleLimit : Nat := Nat.pow 2 1024 - Nat.pow 2 970

/-- Whether the number is finite as a double, when its digits and its power of ten are rounded
to doubles before they are multiplied. -/
def isFinite (decimal : Decimal) : Bool :=
  let (digits, power) := decimal.scientific
  digits = 0 || power < 0 ||
    (power ≤ 308 && nearestDouble digits * nearestDouble (Nat.pow 10 power.toNat) < doubleLimit)

end Decimal

end TextTemplate.Json
