/-!
# Binary floating point as exact numbers

A finite number of a binary format is a whole multiple of a power of two. Here such numbers are
taken apart into that multiple and that power, so that conversions to and from decimal can be
carried out in whole numbers, and put together again.
-/

namespace Ranging

/-- Which of two equally near neighbours a tie goes to. -/
inductive Tie where
  | up
  | even
deriving DecidableEq

/-- `numerator / denominator` rounded to the nearest whole number. -/
def roundDiv (tie : Tie) (numerator denominator : Nat) : Nat :=
  let quotient := numerator / denominator
  let remainder := numerator % denominator
  if 2 * remainder < denominator then quotient
  else if denominator < 2 * remainder then quotient + 1
  else
    match tie with
    | .up => quotient + 1
    | .even => if quotient % 2 = 0 then quotient else quotient + 1

/-- A binary interchange format. -/
structure BinaryFormat where
  /-- Bits of the significand, the leading one included. -/
  precision : Nat
  /-- The exponent of the unit of subnormal numbers. -/
  minExponent : Int
  /-- The exponent of the unit in the highest binade. -/
  maxExponent : Int
deriving DecidableEq

namespace BinaryFormat

/-- 64 bits, 53 of them for the significand. -/
def binary64 : BinaryFormat := ⟨53, -1074, 971⟩

/-- 32 bits, 24 of them for the significand. -/
def binary32 : BinaryFormat := ⟨24, -149, 104⟩

/-- The field that marks infinities and values that are no number. -/
def specialField (f : BinaryFormat) : Nat :=
  (f.maxExponent - f.minExponent + 2).toNat

end BinaryFormat

/-- A magnitude `significand * 2 ^ exponent`. -/
structure Magnitude where
  significand : Nat
  exponent : Int
deriving DecidableEq

/-- What the bits of a floating point number stand for. -/
inductive Binary where
  | nan
  | infinite (negative : Bool)
  | finite (negative : Bool) (magnitude : Magnitude)
deriving DecidableEq

namespace Binary

/-- Take the bits of a number apart. -/
def ofBits (f : BinaryFormat) (bits : Nat) : Binary :=
  let fraction := bits % Nat.pow 2 (f.precision - 1)
  let field := bits / Nat.pow 2 (f.precision - 1) % (f.specialField + 1)
  let negative := bits / Nat.pow 2 (f.precision - 1) / (f.specialField + 1) % 2 = 1
  if field = f.specialField then
    if fraction = 0 then infinite negative else nan
  else if field = 0 then finite negative ⟨fraction, f.minExponent⟩
  else finite negative ⟨Nat.pow 2 (f.precision - 1) + fraction, f.minExponent + (field - 1 : Nat)⟩

/-- The parts of a binary64 number. -/
def ofFloat (x : Float) : Binary :=
  ofBits .binary64 x.toBits.toNat

/-- The parts of a binary32 number. -/
def ofFloat32 (x : Float32) : Binary :=
  ofBits .binary32 x.toBits.toNat

end Binary

namespace Magnitude

/-- The exponent at which `numerator / denominator` has as many bits before the point as the format
keeps, or the least exponent of the format. -/
def exponentFor (f : BinaryFormat) (numerator denominator : Nat) : Int :=
  let scale : Int := numerator.log2 - denominator.log2
  let reachesScale :=
    if 0 ≤ scale then denominator * Nat.pow 2 scale.toNat ≤ numerator
    else denominator ≤ numerator * Nat.pow 2 (-scale).toNat
  let leading := if reachesScale then scale else scale - 1
  max (leading - (f.precision - 1)) f.minExponent

/-- The number of a format nearest to `numerator / denominator`, a tie going to the even
significand; none if the nearest one would lie beyond the format. -/
def nearest? (f : BinaryFormat) (numerator denominator : Nat) : Option Magnitude :=
  let exponent := exponentFor f numerator denominator
  let significand :=
    roundDiv .even (numerator * Nat.pow 2 (-exponent).toNat)
      (denominator * Nat.pow 2 exponent.toNat)
  let d : Magnitude :=
    if significand = Nat.pow 2 f.precision then ⟨Nat.pow 2 (f.precision - 1), exponent + 1⟩
    else ⟨significand, exponent⟩
  if f.maxExponent < d.exponent then none else some d

/-- The bits of a magnitude that the format holds. -/
def toBits (f : BinaryFormat) (d : Magnitude) : Nat :=
  if d.significand < Nat.pow 2 (f.precision - 1) then d.significand
  else (d.exponent - f.minExponent).toNat * Nat.pow 2 (f.precision - 1) + d.significand

/-- The binary64 number with this magnitude, which the format must hold. -/
def toFloat (negative : Bool) (d : Magnitude) : Float :=
  .ofBits (((if negative then Nat.pow 2 63 else 0) + d.toBits .binary64).toUInt64)

end Magnitude

end Ranging
