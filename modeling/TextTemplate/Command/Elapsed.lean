/-!
Elapsed times as the command shows them.
-/

namespace TextTemplate.Command

/-- A number of `10 ^ places`-ths in decimal notation. -/
def decimalText (places number : Nat) : String :=
  let unit := Nat.pow 10 places
  let fraction := toString (number % unit)
  let zeros := String.ofList (List.replicate (places - fraction.length) '0')
  toString (number / unit) ++ "." ++ zeros ++ fraction

/-- A time in the largest unit that it reaches, rounded to the nearest of the places shown. -/
def elapsedText (micros : Nat) : String :=
  if micros < 1000 then toString micros ++ "μs"
  else if micros < 1000000 then decimalText 1 ((micros + 50) / 100) ++ "ms"
  else decimalText 2 ((micros + 5000) / 10000) ++ "s"

end TextTemplate.Command
