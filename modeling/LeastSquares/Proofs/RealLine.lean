import Mathlib.Analysis.SpecialFunctions.Log.Base
import Mathlib.Analysis.SpecialFunctions.Pow.Real
import Mathlib.Analysis.SpecialFunctions.Sqrt
import Mathlib.Analysis.SpecialFunctions.Trigonometric.Basic
import LeastSquares.Scalar

namespace LeastSquares

noncomputable instance : Scalar ℝ where
  natCast n := n
  beq a b := decide (a = b)
  decidableLT := Real.decidableLT
  decidableLE := Real.decidableLE
  isNaN _ := false
  isFinite _ := true
  nan := 0
  infinity := 0
  pi := Real.pi
  e := Real.exp 1
  ln10 := Real.log 10
  ofDecimal mantissa exponent := mantissa * 10 ^ exponent
  abs a := |a|
  sqrt := Real.sqrt
  exp := Real.exp
  log := Real.log
  log10 := Real.logb 10
  sin := Real.sin
  cos := Real.cos
  tan := Real.tan
  pow := Real.rpow

-- A quotient of reals is that of the field and not that of the scalars.
noncomputable instance divReal : Div ℝ := DivInvMonoid.toDiv

@[simp]
theorem Scalar.ln10_real : (Scalar.ln10 : ℝ) = Real.log 10 := rfl

end LeastSquares
