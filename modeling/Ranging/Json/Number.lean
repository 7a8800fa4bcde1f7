import Ranging.Decimal.Shortest

/-!
# Numbers in JSON text

A number is written as digits, with or without a point and an exponent. How the digits become a
binary64 number is left open by a `Conversion`. One rounds the value of all digits (`nearest`).
Another is quick: it collects the digits in one word as long as they fit, and multiplies or divides
the word by a power of ten. Documents are read with the quick one (`scaling`), which rounds the
word, the power and the result, so that a text of many digits may be read as a neighbour of the
nearest number.

Whole numbers in the range of an unsigned word are never converted.
-/

namespace Ranging.Json

/-- A number as it is written, part by part. -/
structure NumberText where
  negative : Bool
  /-- The digits before the point. -/
  whole : List Char
  /-- The digits after the point; none if there is no point. -/
  fraction : List Char
  exponent : Option Int
deriving DecidableEq

/-- The value of a run of digits. -/
def digitsValue (digits : List Char) : Nat :=
  digits.foldl (fun n c => 10 * n + (c.toNat - '0'.toNat)) 0

namespace NumberText

/-- There is neither a point nor an exponent. -/
def isWhole (t : NumberText) : Bool :=
  t.fraction.isEmpty && t.exponent.isNone

/-- The decimal that a number stands for, without its sign. -/
def magnitude (t : NumberText) : Decimal where
  digits := digitsValue (t.whole ++ t.fraction)
  exponent := t.exponent.getD 0 - t.fraction.length

end NumberText

/-- How the text of a number becomes a binary64 number; none if it is out of range. No law is
demanded, because quick conversions round more than once. -/
class Conversion where
  toFloat? : NumberText → Option Float

namespace Conversion

/-- The number nearest to the value of the text. -/
@[reducible] def nearest : Conversion where
  toFloat? t := t.magnitude.toFloat? t.negative

/-- A significand with more digits, as long as it fits into a word, and the number of digits for
which there is no room. -/
def collect (significand : Nat) : List Char → Nat × Nat
  | [] => (significand, 0)
  | c :: rest =>
    let next := 10 * significand + (c.toNat - '0'.toNat)
    if next < UInt64.size then collect next rest else (significand, rest.length + 1)

/-- The greatest power of ten in the range of binary64. -/
def greatestPower : Nat := 308

/-- A power of ten in range, rounded. -/
def powerOfTen (n : Nat) : Float :=
  (Decimal.toFloat? false ⟨1, n⟩).getD 0.0

/-- A number divided by a power of ten, in several steps if the power is out of range. -/
def divide (x : Float) (n : Nat) : Float :=
  if n ≤ greatestPower then x / powerOfTen n
  else if x == 0.0 then x
  else divide (x / powerOfTen greatestPower) (n - greatestPower)
termination_by n
decreasing_by
  have hpositive : 0 < greatestPower := by decide
  omega

/-- A number times a power of ten; none if the result is out of range. -/
def scale? (x : Float) (exponent : Int) : Option Float :=
  if exponent < 0 then some (divide x exponent.natAbs)
  else if exponent.natAbs ≤ greatestPower then
    let y := x * powerOfTen exponent.natAbs
    if y.isInf then none else some y
  else if x == 0.0 then some x
  else none

/-- The digits that fit into a word, times a power of ten. Of the digits that do not fit, those
before the point still count as places. -/
instance scaling : Conversion where
  toFloat? t :=
    let (significand, places) := collect 0 t.whole
    let (significand, ignored) := collect significand t.fraction
    let exponent : Int := t.exponent.getD 0 + places - (t.fraction.length - ignored : Nat)
    (scale? significand.toUInt64.toFloat exponent).map fun x => if t.negative then -x else x

end Conversion

/-- A number that has been read: whole numbers in the range of an unsigned word are kept apart. -/
inductive Number where
  | word (n : Nat)
  | real (x : Float)

namespace Number

/-- The number that a text stands for; none if it is out of range. -/
def ofText? [Conversion] (t : NumberText) : Option Number :=
  if t.isWhole ∧ ¬t.negative ∧ t.magnitude.digits < UInt64.size then some (.word t.magnitude.digits)
  else (Conversion.toFloat? t).map .real

/-- The number in binary64. -/
def toFloat : Number → Float
  | .word n => Float.ofNat n
  | .real x => x

end Number

end Ranging.Json
