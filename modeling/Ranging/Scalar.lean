/-!
# The arithmetic of the ranging computations

Everything from the clock filter to the simulated radio is written over an arbitrary `Scalar`
type. A program runs over `Float`, where every operation rounds to binary64; a statement about
the algorithm itself may read the same definitions over an exact ordered field.

`Scalar` holds what the tag needs: field operations, decimal constants, a decidable order, and
conversions to and from whole numbers. `Analytic` adds the functions that only the simulated
installation needs, such as the square root in a distance.
-/

namespace Ranging

/-- Numbers with field operations, decimal constants and a decidable order. No law is demanded,
because binary64 satisfies none of the interesting ones. -/
class Scalar (K : Type) extends Add K, Sub K, Mul K, Div K, Neg K, LT K, LE K, OfScientific K where
  [decidableLT : DecidableLT K]
  [decidableLE : DecidableLE K]
  /-- The number nearest to a natural number. -/
  ofNat : Nat → K
  /-- The number nearest to an integer. -/
  ofInt : Int → K
  /-- The whole part of a positive number; zero for anything else. -/
  wholePart : K → Nat
  /-- The nearest whole number, a half going away from zero. -/
  round : K → K
  abs : K → K
  /-- The greater of two numbers; a value that is no number loses against any other. -/
  greater : K → K → K
  isFinite : K → Bool
  /-- The largest magnitude that a coordinate can have. -/
  limit : K

attribute [reducible, instance] Scalar.decidableLT Scalar.decidableLE

/-- Numbers with the elementary functions that place anchors and draw noise. -/
class Analytic (K : Type) extends Scalar K where
  sqrt : K → K
  sin : K → K
  cos : K → K
  exp : K → K
  ln : K → K

namespace Scalar

variable {K : Type} [Scalar K]

/-- The whole part in an unsigned word of 64 bits, clamped to the largest word. -/
def toWord (x : K) : UInt64 :=
  (min (wholePart x) (UInt64.size - 1)).toUInt64

/-- The whole part in an unsigned word of 32 bits, clamped to the largest word. -/
def toHalfWord (x : K) : UInt32 :=
  (min (wholePart x) (UInt32.size - 1)).toUInt32

/-- The number without its fraction in a signed word of 64 bits, clamped at both ends. -/
def toSignedWord (x : K) : Int64 :=
  if x < 0.0 then Int64.ofInt (-(min (wholePart (-x)) (Nat.pow 2 63) : Nat))
  else Int64.ofNat (min (wholePart x) (Nat.pow 2 63 - 1))

end Scalar

/-- Binary64 arithmetic: every operation rounds to nearest, a tie to even. -/
instance : Analytic Float where
  decidableLT := inferInstance
  decidableLE := inferInstance
  ofNat := Float.ofNat
  ofInt := Float.ofInt
  wholePart x := x.toUInt64.toNat
  round := Float.round
  abs := Float.abs
  greater x y := if x.isNaN then y else if x < y then y else x
  isFinite := Float.isFinite
  limit := 1.7976931348623157e308
  sqrt := Float.sqrt
  sin := Float.sin
  cos := Float.cos
  exp := Float.exp
  ln := Float.log

end Ranging
