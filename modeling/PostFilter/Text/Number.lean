/-!
# Decimal numbers

The literal of a decimal number, and whether its value is within the range of a double. A value
that would be rounded to infinity is out of range.
-/

namespace PostFilter

/-- A decimal number by its digits: `whole.fraction` times ten to the power `exponent`. -/
structure Decimal where
  whole : List Char
  fraction : List Char
  exponent : Int
  deriving DecidableEq, Repr

namespace Decimal

def digitValue (c : Char) : Nat :=
  c.toNat - '0'.toNat

/-- The number that a run of decimal digits denotes. -/
def natOfDigits (cs : List Char) : Nat :=
  cs.foldl (fun n c => 10 * n + digitValue c) 0

/-- The least value that rounds to infinity, half a step above the greatest double. It has 309
digits. -/
def infinityStart : Nat := Nat.pow 2 1024 - Nat.pow 2 970

/-- Is the value below the least one that rounds to infinity? -/
def inRange (d : Decimal) : Bool :=
  let digits := (d.whole ++ d.fraction).dropWhile (· == '0')
  let skipped := (d.whole ++ d.fraction).length - digits.length
  let places : Int := (d.whole.length : Int) + d.exponent - skipped
  if digits.isEmpty then true
  else if places < 309 then true
  else if places > 309 then false
  else natOfDigits ((digits ++ List.replicate 309 '0').take 309) < infinityStart

end Decimal

end PostFilter
