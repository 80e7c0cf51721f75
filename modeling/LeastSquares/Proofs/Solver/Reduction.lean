import LeastSquares.Proofs.Linear.Solutions
import LeastSquares.Proofs.Solver.Path

namespace LeastSquares

open Matrix

theorem dampedStep_solves {n : Nat} {hessian : DenseMatrix ℝ n n} {gradient step : Vector ℝ n}
    {damping : ℝ} {iteration : Nat} (symmetric : hessian.toMatrix.IsSymm)
    (solved : dampedStep hessian gradient damping iteration = .ok step) :
    hessian.toMatrix *ᵥ step.get + damping • step.get = -gradient.get := by
  have negated : (gradient.map (- ·)).get = -gradient.get := by
    funext i
    exact Vector.get_map gradient _ i
  rw [dampedStep] at solved
  split at solved
  · next solution found =>
      obtain rfl := Except.ok.inj solved
      have equations := DenseMatrix.solveSymmetric?_solves
        (DenseMatrix.isSymm_addDiagonal symmetric damping) found
      rwa [DenseMatrix.toMatrix_addDiagonal, add_mulVec, smul_mulVec, one_mulVec, negated]
        at equations
  · cases solved

theorem halfSquare_eq {m : Nat} (residuals : Vector ℝ m) :
    Problem.halfSquare residuals = residuals.get ⬝ᵥ residuals.get / 2 := by
  rw [Problem.halfSquare, dot_eq_dotProduct, Nat.cast_ofNat]

theorem predictedReduction_eq {n : Nat} (step gradient : Vector ℝ n) (damping : ℝ) :
    predictedReduction step gradient damping =
      step.get ⬝ᵥ (damping • step.get - gradient.get) / 2 := by
  have difference : (Vector.zipWith (fun h g => h * damping - g) step gradient).get =
      damping • step.get - gradient.get := by
    funext i
    rw [get_zipWith, mul_comm]
    rfl
  rw [predictedReduction, dot_eq_dotProduct, difference, Nat.cast_ofNat]

theorem Search.params_propose {n : Nat} (search : Search ℝ n) (step : Vector ℝ n) :
    (search.propose step).params.get = search.params.get + step.get :=
  funext fun i => get_zipWith (· + ·) search.params step i

theorem Search.stepLength_propose {n : Nat} (search : Search ℝ n) (step : Vector ℝ n) :
    (search.propose step).stepLength = Real.sqrt (step.get ⬝ᵥ step.get) := by
  have squares : Vector.zipWith (fun new old => (new - old) * (new - old))
      (search.propose step).params (search.propose step).previous =
        Vector.zipWith (· * ·) step step := by
    apply Vector.ext
    intro i bound
    simp only [propose, Vector.getElem_zipWith, add_sub_cancel_left]
  rw [stepLength, squares, Scalar.sum_toList]
  simp only [get_zipWith, dotProduct]
  rfl

namespace Linearization

variable {m n : Nat} {linearization : Linearization ℝ m n}

theorem hessian_entry_self (i : Fin n) : linearization.hessian.entry i i =
    (fun k => linearization.jacobian.entry k i) ⬝ᵥ fun k => linearization.jacobian.entry k i := by
  rw [linearization.hessian_eq, DenseMatrix.entry_gram, (sumsTo_lineDot _ _).eq_dotProduct,
    DenseMatrix.get_transpose]

theorem gradient_apply (i : Fin n) : linearization.gradient.get i =
    (fun k => linearization.jacobian.entry k i) ⬝ᵥ linearization.residuals.get := by
  rw [linearization.gradient_eq, DenseMatrix.transposeApply_eq_mulVec]
  rfl

end Linearization

variable {problem : Problem ℝ} {settings : Settings ℝ}

namespace Head

variable {head : Head problem} {step : Vector ℝ problem.parameterCount}
  {residuals : Vector ℝ problem.residualCount}

theorem Solves.normal (solved : head.Solves step) :
    head.linearization.jacobian.toMatrixᵀ *ᵥ (head.linearization.jacobian.toMatrix *ᵥ step.get) +
        head.search.damping • step.get =
      -head.linearization.gradient.get := by
  have symmetric : head.linearization.hessian.toMatrix.IsSymm := by
    rw [head.linearization.hessian_eq]
    exact DenseMatrix.isSymm_gram _
  have equations := dampedStep_solves symmetric solved
  rwa [head.linearization.hessian_eq, DenseMatrix.toMatrix_gram, ← mulVec_mulVec] at equations

theorem Solves.predicted_eq (solved : head.Solves step) :
    predictedReduction step head.linearization.gradient head.search.damping =
      (head.linearization.jacobian.toMatrix *ᵥ step.get) ⬝ᵥ
          (head.linearization.jacobian.toMatrix *ᵥ step.get) / 2 +
        head.search.damping * (step.get ⬝ᵥ step.get) := by
  let change := head.linearization.jacobian.toMatrix *ᵥ step.get
  have normal : -head.linearization.gradient.get =
      head.linearization.jacobian.toMatrixᵀ *ᵥ change + head.search.damping • step.get :=
    solved.normal.symm
  have square : step.get ⬝ᵥ (head.linearization.jacobian.toMatrixᵀ *ᵥ change) =
      change ⬝ᵥ change := by
    rw [dotProduct_mulVec, vecMul_transpose]
  rw [predictedReduction_eq, sub_eq_add_neg, normal]
  simp only [dotProduct_add, dotProduct_smul, smul_eq_mul, square]
  ring

theorem Solves.predicted_nonneg (solved : head.Solves step) (damped : 0 ≤ head.search.damping) :
    0 ≤ predictedReduction step head.linearization.gradient head.search.damping := by
  have square {n : Nat} (v : Fin n → ℝ) : 0 ≤ v ⬝ᵥ v := dotProduct_star_self_nonneg v
  rw [solved.predicted_eq]
  exact add_nonneg (div_nonneg (square _) zero_le_two) (mul_nonneg damped (square _))

theorem Solves.predicted_pos (solved : head.Solves step) (damped : 0 < head.search.damping)
    {i : Fin problem.parameterCount} (slope : head.linearization.gradient.get i ≠ 0) :
    0 < predictedReduction step head.linearization.gradient head.search.damping := by
  have moves : step.get ≠ 0 := by
    intro still
    have normal := congrFun solved.normal i
    rw [still, mulVec_zero, mulVec_zero, smul_zero, add_zero] at normal
    exact slope (neg_eq_zero.mp normal.symm)
  have square {n : Nat} (v : Fin n → ℝ) : 0 ≤ v ⬝ᵥ v := dotProduct_star_self_nonneg v
  have length : 0 < step.get ⬝ᵥ step.get := dotProduct_star_self_pos_iff.mpr moves
  rw [solved.predicted_eq]
  exact add_pos_of_nonneg_of_pos (div_nonneg (square _) zero_le_two) (mul_pos damped length)

theorem gain_eq (head : Head problem) (step : Vector ℝ problem.parameterCount)
    (residuals : Vector ℝ problem.residualCount) : head.gain step residuals =
      (head.linearization.cost - Problem.halfSquare residuals) /
        predictedReduction step head.linearization.gradient head.search.damping := by
  unfold gain gainRatio
  rw [sub_div]
  rfl

theorem gain_pos_iff (head : Head problem) (step : Vector ℝ problem.parameterCount)
    (residuals : Vector ℝ problem.residualCount) :
    ((0 : Nat) : ℝ) < head.gain step residuals ↔
      Problem.halfSquare residuals < head.linearization.cost ∧
          0 < predictedReduction step head.linearization.gradient head.search.damping ∨
        head.linearization.cost < Problem.halfSquare residuals ∧
          predictedReduction step head.linearization.gradient head.search.damping < 0 := by
  rw [gain_eq, Nat.cast_zero]
  exact div_pos_iff.trans (or_congr (and_congr_left' sub_pos) (and_congr_left' sub_neg))

end Head

end LeastSquares
