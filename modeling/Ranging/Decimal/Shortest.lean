import Ranging.Decimal.Binary

/-!
# The shortest decimal that reads back

Among the decimals that round to a given floating point number there are some with the fewest
digits, and of these one is nearest to the number. It is found by looking at ever finer decimal
grids: if a grid has a point that reads back, then one of the number's two neighbours on the grid
does.
-/

namespace Ranging

/-- The decimal number `digits * 10 ^ exponent`. -/
structure Decimal where
  digits : Nat
  exponent : Int
deriving DecidableEq

namespace Decimal

/-- The number of decimal digits of a whole number; one for zero. -/
def width (n : Nat) : Nat :=
  (Nat.toDigits 10 n).length

/-- The power of ten at or below `numerator / denominator`. -/
def order (numerator denominator : Nat) : Int :=
  if denominator ≤ numerator then (width (numerator / denominator) : Int) - 1
  else
    let w := width (denominator / numerator)
    if denominator ≤ numerator * Nat.pow 10 (w - 1) then -((w : Int) - 1) else -(w : Int)

/-- The real numbers that round to a binary floating point number, in quarters of its unit. -/
structure RoundingInterval where
  /-- The number itself, in quarters of the unit. -/
  centre : Nat
  /-- Below this bound, numbers round to the next lower one. -/
  low : Nat
  /-- Above this bound, numbers round to the next higher one. -/
  high : Nat
  /-- The bounds themselves round to this number. -/
  closed : Bool
  /-- A quarter of the unit is `2 ^ exponent`. -/
  exponent : Int

namespace RoundingInterval

/-- The interval around a positive magnitude of a format. It is narrower below a power of two,
where the next lower number is only half a unit away. -/
def ofMagnitude (f : BinaryFormat) (d : Magnitude) : RoundingInterval where
  centre := 4 * d.significand
  low :=
    if d.significand = Nat.pow 2 (f.precision - 1) ∧ f.minExponent < d.exponent then
      4 * d.significand - 1
    else 4 * d.significand - 2
  high := 4 * d.significand + 2
  closed := d.significand % 2 = 0
  exponent := d.exponent - 2

/-- `quarters` as a whole number, on the scale where a step of the grid `10 ^ k` is `step k`. -/
def scaled (i : RoundingInterval) (k : Int) (quarters : Nat) : Nat :=
  quarters * Nat.pow 2 i.exponent.toNat * Nat.pow 10 (-k).toNat

/-- A step of the grid `10 ^ k` on the common scale. -/
def step (i : RoundingInterval) (k : Int) : Nat :=
  Nat.pow 2 (-i.exponent).toNat * Nat.pow 10 k.toNat

/-- The grid point `n * 10 ^ k` rounds to the number. -/
def covers (i : RoundingInterval) (k : Int) (n : Nat) : Bool :=
  let point := n * i.step k
  if i.closed then i.scaled k i.low ≤ point && point ≤ i.scaled k i.high
  else i.scaled k i.low < point && point < i.scaled k i.high

/-- The grid point of `10 ^ k` nearest to the number among its two neighbours that round to it. -/
def onGrid? (tie : Tie) (i : RoundingInterval) (k : Int) : Option Nat :=
  let below := i.scaled k i.centre / i.step k
  match i.covers k below, i.covers k (below + 1) with
  | false, false => none
  | true, false => some below
  | false, true => some (below + 1)
  | true, true => some (roundDiv tie (i.scaled k i.centre) (i.step k))

end RoundingInterval

/-- The shortest decimal that rounds to a positive magnitude of a format, and of the shortest ones
the nearest. -/
def shortest (tie : Tie) (f : BinaryFormat) (d : Magnitude) : Decimal :=
  let i := RoundingInterval.ofMagnitude f d
  let top := order (i.scaled 0 i.centre) (i.step 0)
  let found := (List.range 20).findSome? fun (finer : Nat) =>
    let k := top + 1 - finer
    (i.onGrid? tie k).map fun digits => ({ digits, exponent := k } : Decimal)
  found.getD { digits := 0, exponent := 0 }

/-- The binary64 number nearest to a decimal; none if it lies beyond the largest finite number. -/
def toFloat? (negative : Bool) (d : Decimal) : Option Float :=
  let magnitude := width d.digits + d.exponent
  if d.digits = 0 ∨ magnitude < -330 then some (Magnitude.toFloat negative ⟨0, 0⟩)
  else if 310 < magnitude then none
  else
    let numerator := d.digits * Nat.pow 10 d.exponent.toNat
    (Magnitude.nearest? .binary64 numerator (Nat.pow 10 (-d.exponent).toNat)).map
      (Magnitude.toFloat negative)

end Decimal

end Ranging
