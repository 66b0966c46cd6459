import PostFilter.Text.Number

/-!
# The range of JSON numbers

A number is read as a significand of sixty-four bits and a power of ten, and becomes the product of
the doubles nearest to the two. A number is out of range if this product is infinite. Next to the
greatest double that differs from rounding the number itself, in either direction.
-/

namespace PostFilter.Json

/-! ## Doubles -/

/-- The number nearest to `n` that has at most fifty-three significant bits. Of two such numbers it
is the one with an even significand. -/
def roundToDouble (n : Nat) : Nat :=
  let unit := Nat.pow 2 (n.log2 - 52)
  let below := n / unit
  let rest := 2 * (n % unit)
  if unit < rest || (rest == unit && below % 2 == 1) then (below + 1) * unit else below * unit

/-- The product of two doubles, if they are whole numbers and it is finite. -/
def multiplyDoubles? (a b : Nat) : Option Nat :=
  let product := roundToDouble (a * b)
  if product < Nat.pow 2 1024 then some product else none

/-! ## Numbers -/

/-- A number while it is read: `significand` times ten to the power `exponent`. -/
structure Scaled where
  significand : Nat
  exponent : Int
  deriving DecidableEq, Repr

namespace Scaled

def maxSignificand : Nat := 18446744073709551615

/-- Append digits up to the first one that does not fit, and count the digits from there on. -/
def appendDigits (significand : Nat) : List Char → Nat × Nat
  | [] => (significand, 0)
  | d :: ds =>
    let next := 10 * significand + Decimal.digitValue d
    if next ≤ maxSignificand then appendDigits next ds else (significand, ds.length + 1)

/-- Digits of the whole part that do not fit count as zeros, those of the fraction not at all. -/
def ofDecimal (d : Decimal) : Scaled :=
  let (whole, wholeRest) := appendDigits 0 d.whole
  let (significand, fractionRest) := appendDigits whole d.fraction
  ⟨significand, d.exponent + wholeRest - (d.fraction.length - fractionRest : Nat)⟩

/-- The greatest power of ten that is a finite double. -/
def maxExponent : Nat := 308

/-- Is the double for the number finite? -/
def isFinite (x : Scaled) : Bool :=
  if x.significand = 0 ∨ x.exponent < 0 then true
  else if maxExponent < x.exponent then false
  else
    (multiplyDoubles? (roundToDouble x.significand)
      (roundToDouble (Nat.pow 10 x.exponent.toNat))).isSome

end Scaled

end PostFilter.Json
