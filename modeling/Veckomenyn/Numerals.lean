import Veckomenyn.DateText

/-!
Numbers in texts as the code reads them.
-/

namespace Veckomenyn.Numerals

/-- A sign and what follows it. -/
def sign : List Char → Bool × List Char
  | '-' :: cs => (true, cs)
  | '+' :: cs => (false, cs)
  | cs => (false, cs)

/-- `strconv.Atoi`: decimal digits after an optional sign, in 64 bits. -/
def atoi (s : List Char) : Option ℤ :=
  let (neg, digits) := sign s
  if digits = [] then none
  else match DateText.number digits with
    | none => none
    | some n =>
      let v : ℤ := if neg then -n else n
      if -2 ^ 63 ≤ v ∧ v < 2 ^ 63 then some v else none

example : atoi ['-', '1', '2'] = some (-12) := by decide

end Veckomenyn.Numerals
