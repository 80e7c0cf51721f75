import LeastSquares.Formula.Derivative
import LeastSquares.Proofs.RealLine

namespace LeastSquares

namespace Elementary

@[simp]
theorem apply_exp : (exp.apply : ℝ → ℝ) = Real.exp := rfl

@[simp]
theorem apply_log : (log.apply : ℝ → ℝ) = Real.log := rfl

@[simp]
theorem apply_log10 : (log10.apply : ℝ → ℝ) = fun value => Real.log value / Real.log 10 := rfl

@[simp]
theorem apply_sin : (sin.apply : ℝ → ℝ) = Real.sin := rfl

@[simp]
theorem apply_cos : (cos.apply : ℝ → ℝ) = Real.cos := rfl

@[simp]
theorem apply_tan : (tan.apply : ℝ → ℝ) = Real.tan := rfl

@[simp]
theorem apply_sqrt : (sqrt.apply : ℝ → ℝ) = Real.sqrt := rfl

end Elementary

namespace Formula

variable {x : ℝ} {params : List ℝ} (u v : Formula ℝ)

@[simp]
theorem evaluate_number (value : ℝ) : (number value).evaluate x params = value := rfl

@[simp]
theorem evaluate_whole (n : Nat) : (whole n : Formula ℝ).evaluate x params = n := rfl

@[simp]
theorem evaluate_neg : (neg u).evaluate x params = -u.evaluate x params := rfl

@[simp]
theorem evaluate_add :
    (binary .add u v).evaluate x params = u.evaluate x params + v.evaluate x params := rfl

@[simp]
theorem evaluate_sub :
    (binary .sub u v).evaluate x params = u.evaluate x params - v.evaluate x params := rfl

@[simp]
theorem evaluate_mul :
    (binary .mul u v).evaluate x params = u.evaluate x params * v.evaluate x params := rfl

@[simp]
theorem evaluate_div :
    (binary .div u v).evaluate x params = u.evaluate x params / v.evaluate x params := rfl

@[simp]
theorem evaluate_pow :
    (binary .pow u v).evaluate x params = u.evaluate x params ^ v.evaluate x params := rfl

@[simp]
theorem evaluate_call (f : Elementary) :
    (call f u).evaluate x params = f.apply (u.evaluate x params) := rfl

theorem asNumber?_eq_some {u : Formula ℝ} {value : ℝ} (found : u.asNumber? = some value) :
    u = number value := by
  cases u with
  | number _ => exact congrArg number (Option.some.inj found)
  | _ => cases found

theorem eq_of_isZero {u : Formula ℝ} (zero : u.isZero = true) : u = number 0 := by
  cases u with
  | number value => simpa [isZero, asNumber?] using zero
  | _ => cases zero

theorem eq_of_isOne {u : Formula ℝ} (one : u.isOne = true) : u = number 1 := by
  cases u with
  | number value => simpa [isOne, asNumber?] using one
  | _ => cases one

theorem eq_of_isMinusOne {u : Formula ℝ} (minusOne : u.isMinusOne = true) : u = number (-1) := by
  cases u with
  | number value => simpa [isMinusOne, asNumber?] using minusOne
  | _ => cases minusOne

@[simp]
theorem evaluate_foldNeg : u.foldNeg.evaluate x params = -u.evaluate x params := by
  cases u with
  | neg operand => exact (neg_neg _).symm
  | _ => rfl

@[simp]
theorem evaluate_foldAdd :
    (foldAdd u v).evaluate x params = u.evaluate x params + v.evaluate x params := by
  unfold foldAdd
  split
  case h_1 a b numberLeft numberRight =>
    rw [asNumber?_eq_some numberLeft, asNumber?_eq_some numberRight]
    rfl
  case h_2 =>
    split_ifs with zeroLeft zeroRight
    · simp [eq_of_isZero zeroLeft]
    · simp [eq_of_isZero zeroRight]
    · split
      · simp [sub_eq_add_neg]
      · simp

@[simp]
theorem evaluate_foldSub :
    (foldSub u v).evaluate x params = u.evaluate x params - v.evaluate x params := by
  unfold foldSub
  split
  case h_1 a b numberLeft numberRight =>
    rw [asNumber?_eq_some numberLeft, asNumber?_eq_some numberRight]
    rfl
  case h_2 =>
    split_ifs with zeroLeft zeroRight
    · simp [eq_of_isZero zeroLeft]
    · simp [eq_of_isZero zeroRight]
    · simp

theorem evaluate_signedProduct :
    (signedProduct u v).evaluate x params = u.evaluate x params * v.evaluate x params := by
  unfold signedProduct
  split <;> simp

@[simp]
theorem evaluate_foldMul :
    (foldMul u v).evaluate x params = u.evaluate x params * v.evaluate x params := by
  unfold foldMul
  split
  case h_1 a b numberLeft numberRight =>
    rw [asNumber?_eq_some numberLeft, asNumber?_eq_some numberRight]
    rfl
  case h_2 =>
    split_ifs with zero oneLeft oneRight minusLeft minusRight
    · rcases Bool.or_eq_true_iff.mp zero with zeroLeft | zeroRight
      · simp [eq_of_isZero zeroLeft]
      · simp [eq_of_isZero zeroRight]
    · simp [eq_of_isOne oneLeft]
    · simp [eq_of_isOne oneRight]
    · simp [eq_of_isMinusOne minusLeft]
    · simp [eq_of_isMinusOne minusRight]
    · exact evaluate_signedProduct u v

theorem evaluate_signedQuotient :
    (signedQuotient u v).evaluate x params = u.evaluate x params / v.evaluate x params := by
  unfold signedQuotient
  split <;> simp [neg_div]

@[simp]
theorem evaluate_foldDiv :
    (foldDiv u v).evaluate x params = u.evaluate x params / v.evaluate x params := by
  have unfolded :
      (if u.isZero then whole 0 else if v.isOne then u else signedQuotient u v).evaluate x params =
        u.evaluate x params / v.evaluate x params := by
    split_ifs with zeroLeft oneRight
    · simp [eq_of_isZero zeroLeft]
    · simp [eq_of_isOne oneRight]
    · exact evaluate_signedQuotient u v
  unfold foldDiv
  dsimp only
  split
  case h_1 a b numberLeft numberRight =>
    split
    · exact unfolded
    · rw [asNumber?_eq_some numberLeft, asNumber?_eq_some numberRight]
      rfl
  case h_2 => exact unfolded

@[simp]
theorem evaluate_foldPow :
    (foldPow u v).evaluate x params = u.evaluate x params ^ v.evaluate x params := by
  unfold foldPow
  split
  case h_1 a b numberLeft numberRight =>
    rw [asNumber?_eq_some numberLeft, asNumber?_eq_some numberRight]
    rfl
  case h_2 =>
    split_ifs with zeroRight oneRight
    · simp [eq_of_isZero zeroRight]
    · simp [eq_of_isOne oneRight]
    · simp

@[simp]
theorem evaluate_foldCall (f : Elementary) :
    (foldCall f u).evaluate x params = f.apply (u.evaluate x params) := by
  cases u <;> rfl

end Formula

end LeastSquares
