/-!
# Decimal numbers in double precision

A decimal number is taken as a significand below `2 ^ 64` times a power of ten. Digits that no
longer fit are left out: before the point they count for the power, after it they are dropped. Its value in
double precision is the product of the rounded significand and the rounded power, and
`Decimal.isTooLarge` says when there is no such value.
-/

namespace Story.Json

/-- The number rounded to 53 binary places, a half to the even neighbour. -/
def roundToDouble (n : Nat) : Nat :=
  let unit := Nat.pow 2 (n.log2 + 1 - 53)
  let whole := n / unit
  let rest := n % unit
  let roundsUp := unit < 2 * rest || (2 * rest == unit && whole % 2 == 1)
  (if roundsUp then whole + 1 else whole) * unit

/-- From here on, numbers have no value in double precision. -/
def doubleBound : Nat := Nat.pow 2 1024 - Nat.pow 2 970

/-- The largest power of ten in double precision. -/
def largestPower : Nat := 308

/-- A significand and a power of ten. -/
structure Decimal where
  /-- The significand. -/
  significand : Nat
  /-- The power of ten. -/
  power : Int
deriving DecidableEq

/-- Significands are below this bound. -/
def significandBound : Nat := Nat.pow 2 64

/-- Put digits after a significand as long as they fit; tell how many did. -/
def fitDigits : Nat → List Nat → Nat × Nat
  | significand, [] => (significand, 0)
  | significand, d :: ds =>
    let next := 10 * significand + d
    if next < significandBound then
      let (result, count) := fitDigits next ds
      (result, count + 1)
    else (significand, 0)

namespace Decimal

/-- The number with these digits before and after the point. -/
def ofDigits (whole part : List Nat) : Decimal :=
  let (front, fitted) := fitDigits 0 whole
  let (all, added) := fitDigits front part
  ⟨all, (whole.length - fitted : Nat) - (added : Int)⟩

/-- The number times a power of ten. -/
def scale (d : Decimal) (power : Int) : Decimal := ⟨d.significand, d.power + power⟩

/-- Whether the number has no value in double precision because it is too large. -/
def isTooLarge (d : Decimal) : Bool :=
  if d.significand = 0 ∨ d.power < 0 then false
  else if largestPower < d.power then true
  else doubleBound ≤ roundToDouble d.significand * roundToDouble (Nat.pow 10 d.power.toNat)

end Decimal

end Story.Json
