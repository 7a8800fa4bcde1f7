import Mathlib.Algebra.Order.Floor.Ring
import Mathlib.Algebra.Order.Ring.Rat
import Mathlib.Data.Rat.Cast.OfScientific
import Mathlib.Data.Rat.Floor
import Mathlib.Tactic.NormNum
import Ranging.Scalar

/-!
# Exact arithmetic

Every ordered field with a floor is a `Scalar`: its own operations are the operations, decimal
constants have their exact value, and conversions do not round. A definition written over `Scalar`
can then be read as what it computes, free of rounding. The rational numbers are the instance that
can be evaluated.

Exact numbers have no computable square root or sine in general, so the functions of `Analytic`
stay parameters.
-/

namespace Ranging

namespace Scalar

variable {K : Type} [Field K] [LinearOrder K] [FloorRing K]

/-- The operations of the field itself. -/
instance (priority := low) ofField : Scalar K where
  ofNat n := n
  ofInt z := z
  wholePart x := ⌊x⌋.toNat
  round x := if 0 ≤ x then ⌊x + 1 / 2⌋ else ⌈x - 1 / 2⌉
  abs x := |x|
  greater := max
  isFinite _ := true
  limit := 1.7976931348623157e308

@[simp] theorem ofField_ofInt (z : Int) : (Scalar.ofInt z : K) = z := rfl

end Scalar

namespace Analytic

/-- Exact arithmetic with some choice of elementary functions. -/
@[reducible] def ofField {K : Type} [Field K] [LinearOrder K] [FloorRing K]
    (sqrt sin cos exp ln : K → K) : Analytic K :=
  { Scalar.ofField with sqrt, sin, cos, exp, ln }

end Analytic

end Ranging
