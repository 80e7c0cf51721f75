import LeastSquares.Proofs.Formula.Differentiation

namespace LeastSquares.Formula

def PowerSmooth (x : ℝ) (params : List ℝ) (base exponent : Formula ℝ) : Prop :=
  0 < base.evaluate x params ∨
    base.evaluate x params ≠ 0 ∧ exponent.parameters = [] ∧
      ∃ k : ℤ, exponent.evaluate x params = k

def Smooth (x : ℝ) (params : List ℝ) : Formula ℝ → Prop
  | number _ | sample | param _ => True
  | neg operand => operand.Smooth x params
  | binary op left right =>
    left.Smooth x params ∧ right.Smooth x params ∧
      match op with
      | .add | .sub | .mul => True
      | .div => right.evaluate x params ≠ 0
      | .pow => PowerSmooth x params left right
  | call f argument => argument.Smooth x params ∧ f.Regular (argument.evaluate x params)

variable {x : ℝ} {params : List ℝ} {u v du dv : Formula ℝ}

theorem parameters_eq_nil {α : Type} (formula : Formula α) :
    formula.parameters = [] ↔ ∀ i, formula.dependsOn i = false := by
  simp only [List.eq_nil_iff_forall_not_mem, mem_parameters, Bool.not_eq_true]

theorem PowerSmooth.base_ne_zero (power : PowerSmooth x params u v) : u.evaluate x params ≠ 0 :=
  power.elim ne_of_gt And.left

theorem PowerSmooth.base_pos (power : PowerSmooth x params u v) {i : Nat}
    (varies : v.dependsOn i = true) : 0 < u.evaluate x params := by
  refine power.resolve_right fun ⟨_, fixed, _⟩ => ?_
  rw [(parameters_eq_nil v).mp fixed i] at varies
  cases varies

theorem Smooth.regular {formula : Formula ℝ} (smooth : formula.Smooth x params) (index : Nat) :
    formula.Regular index x params := by
  induction formula with
  | number _ | sample | param _ => trivial
  | neg operand ih => exact ih smooth
  | binary op left right ihl ihr =>
      obtain ⟨left, right, atNode⟩ := smooth
      refine ⟨ihl left, ihr right, ?_⟩
      cases op with
      | add | sub | mul => trivial
      | div => exact atNode
      | pow =>
          refine atNode.imp_right ?_
          rintro ⟨nonzero, fixed, k, whole⟩
          exact ⟨(parameters_eq_nil _).mp fixed index, k, whole, .inl nonzero⟩
  | call f argument ih => exact ⟨ih smooth.1, smooth.2⟩

theorem hereditary_smooth (x : ℝ) (params : List ℝ) : Hereditary (Smooth x params) where
  number _ := trivial
  neg := .rfl
  add left right := ⟨left, right, trivial⟩
  sub left right := ⟨left, right, trivial⟩
  mul left right := ⟨left, right, trivial⟩

theorem powerSmooth_of_whole (n : Nat) (nonzero : u.evaluate x params ≠ 0) :
    PowerSmooth x params u (whole n) :=
  .inr ⟨nonzero, rfl, n, by simp⟩

namespace Smooth

theorem foldDiv (left : u.Smooth x params) (right : v.Smooth x params)
    (nonzero : v.evaluate x params ≠ 0) : (foldDiv u v).Smooth x params :=
  (hereditary_smooth x params).foldDiv left fun left => ⟨left, right, nonzero⟩

theorem foldPow (left : u.Smooth x params) (right : v.Smooth x params)
    (power : PowerSmooth x params u v) : (foldPow u v).Smooth x params :=
  (hereditary_smooth x params).foldPow left ⟨left, right, power⟩

theorem foldCall {f : Elementary} (smooth : u.Smooth x params)
    (regular : f.Regular (u.evaluate x params)) : (foldCall f u).Smooth x params :=
  (hereditary_smooth x params).foldCall ⟨smooth, regular⟩

theorem outerDerivative {f : Elementary} (smooth : u.Smooth x params)
    (regular : f.Regular (u.evaluate x params)) : (outerDerivative f u).Smooth x params := by
  have folds := hereditary_smooth x params
  cases f with
  | exp => exact smooth.foldCall trivial
  | log => exact (folds.whole 1).foldDiv smooth (ne_of_gt regular)
  | log10 =>
      refine (folds.whole 1).foldDiv (folds.foldMul smooth (folds.number _)) ?_
      have positive : 0 < Real.log 10 := Real.log_pos (by norm_num)
      rw [evaluate_foldMul]
      exact mul_ne_zero (ne_of_gt regular) (ne_of_gt positive)
  | sin => exact smooth.foldCall trivial
  | cos => exact folds.foldNeg (smooth.foldCall (f := .sin) trivial)
  | tan =>
      have cosine : (Formula.foldCall .cos u).evaluate x params ≠ 0 := by
        rw [evaluate_foldCall]
        exact regular
      have called : (Formula.foldCall .cos u).Smooth x params := smooth.foldCall trivial
      refine (folds.whole 1).foldDiv
        (called.foldPow (folds.whole 2) (powerSmooth_of_whole 2 cosine)) ?_
      simpa using cosine
  | sqrt =>
      refine (folds.whole 1).foldDiv (folds.foldMul (folds.whole 2) (smooth.foldCall regular)) ?_
      have root : Real.sqrt (u.evaluate x params) ≠ 0 := ne_of_gt (Real.sqrt_pos.mpr regular)
      simpa using root

theorem powerDerivative {baseVaries exponentVaries : Bool} (left : u.Smooth x params)
    (right : v.Smooth x params) (leftToo : du.Smooth x params) (rightToo : dv.Smooth x params)
    (power : PowerSmooth x params u v)
    (positive : exponentVaries = true → 0 < u.evaluate x params) :
    (powerDerivative u v du dv baseVaries exponentVaries).Smooth x params := by
  have folds := hereditary_smooth x params
  have raised := left.foldPow right power
  match baseVaries, exponentVaries with
  | false, false => exact folds.whole 0
  | true, false =>
      have lowered : PowerSmooth x params u (foldSub v (whole 1)) := by
        refine power.imp_right ?_
        rintro ⟨nonzero, free, k, whole⟩
        refine ⟨nonzero, ?_, k - 1, by simp [whole]⟩
        rw [parameters_eq_nil] at free ⊢
        intro i
        have fixed := hereditary_dependsOn (α := ℝ) i
        exact fixed.foldSub (free i) (fixed.whole 1)
      have power := left.foldPow (folds.foldSub right (folds.whole 1)) lowered
      exact folds.foldMul (folds.foldMul right power) leftToo
  | false, true =>
      have logarithm : (Formula.foldCall .log u).Smooth x params := left.foldCall (positive rfl)
      exact folds.foldMul (folds.foldMul raised logarithm) rightToo
  | true, true =>
      have logarithm : (Formula.foldCall .log u).Smooth x params := left.foldCall (positive rfl)
      have quotient := (folds.foldMul right leftToo).foldDiv left power.base_ne_zero
      exact folds.foldMul raised (folds.foldAdd (folds.foldMul rightToo logarithm) quotient)

theorem derivative {formula : Formula ℝ} (smooth : formula.Smooth x params) (index : Nat) :
    (formula.derivative index).Smooth x params := by
  have folds := hereditary_smooth x params
  induction formula with
  | number _ | sample | param _ => exact folds.whole _
  | neg operand ih => exact folds.foldNeg (ih smooth)
  | binary op u v ihu ihv =>
      obtain ⟨left, right, atNode⟩ := smooth
      have leftToo := ihu left
      have rightToo := ihv right
      cases op with
      | add => exact folds.foldAdd leftToo rightToo
      | sub => exact folds.foldSub leftToo rightToo
      | mul => exact folds.foldAdd (folds.foldMul leftToo right) (folds.foldMul left rightToo)
      | div =>
          rw [Formula.derivative]
          split
          · have square : (Formula.foldPow v (whole 2)).evaluate x params ≠ 0 := by
              simpa using atNode
            have divisor := right.foldPow (folds.whole 2) (powerSmooth_of_whole 2 atNode)
            exact (folds.foldSub (folds.foldMul leftToo right)
              (folds.foldMul left rightToo)).foldDiv divisor square
          · exact leftToo.foldDiv right atNode
      | pow => exact left.powerDerivative right leftToo rightToo atNode atNode.base_pos
  | call f argument ih =>
      rw [Formula.derivative]
      split
      · exact folds.whole 0
      · exact folds.foldMul (smooth.1.outerDerivative smooth.2) (ih smooth.1)

end Smooth

end LeastSquares.Formula
