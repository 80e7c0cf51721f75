import LeastSquares.Proofs.Formula.Differentiation
import LeastSquares.Proofs.Model.Residuals
import LeastSquares.Proofs.Solver.Reduction

namespace LeastSquares

open Matrix

theorem hasDerivAt_halfSquare {m : Nat} {residuals : ℝ → Vector ℝ m} {slopes : Fin m → ℝ} {t : ℝ}
    (derivatives : ∀ k, HasDerivAt (fun s => (residuals s).get k) (slopes k) t) :
    HasDerivAt (fun s => Problem.halfSquare (residuals s)) (slopes ⬝ᵥ (residuals t).get) t := by
  have squares := HasDerivAt.fun_sum fun k (_ : k ∈ Finset.univ) =>
    (derivatives k).mul (derivatives k)
  simp only [halfSquare_eq, dotProduct]
  refine (squares.div_const 2).congr_deriv ?_
  rw [Finset.sum_div]
  refine Finset.sum_congr rfl fun k _ => ?_
  ring

namespace Model

section Slopes

variable (model : Model ℝ) (data : Dataset ℝ) {params : Vector ℝ model.arity}

theorem hasDerivAt_residual {k : Fin data.size} {i : Fin model.arity}
    (regular : model.formula.Regular i (data.x.get k) params.toList) :
    HasDerivAt (fun t => (model.residuals data (params.set i t)).get k)
      (-((model.derivatives.get i).evaluate (data.x.get k) params.toList)) (params.get i) := by
  have covered : ∀ j ∈ model.formula.parameters, j < params.toList.length := by
    rw [model.parameters_eq, params.length_toList]
    exact fun j => List.mem_range.mp
  have here : params.toList.set i (params.get i) = params.toList :=
    (Vector.toList_set i.isLt).symm.trans (congrArg Vector.toList (set_get_self params i))
  have along := Formula.hasDerivAt_along model.formula i (data.x.get k) params.toList
    (params.get i) covered (by rwa [here])
  have derivative : model.derivatives.get i = model.formula.derivative i := by
    rw [model.derivatives_eq, Vector.get_ofFn]
  simp only [get_residuals, Vector.toList_set]
  rw [derivative]
  rw [here] at along
  exact along.const_sub _

end Slopes

/-- Where the rules of differentiation apply at every sample, the linearization of a fitting problem
holds the partial derivatives of its residuals and of its cost. -/
theorem linearization_differentiates (model : Model ℝ) (data : Dataset ℝ)
    (params : Vector ℝ model.arity)
    (regular : ∀ (k : Fin data.size) (i : Fin model.arity),
      model.formula.Regular i (data.x.get k) params.toList) :
    ∃ (residuals : Vector ℝ model.arity → Vector ℝ data.size) (cost : Vector ℝ model.arity → ℝ)
        (linearization : Linearization ℝ data.size model.arity),
      (∀ p, (Problem.ofModel model data).residuals p = .ok (residuals p)) ∧
      (∀ p k, (residuals p).get k =
        data.y.get k - model.formula.evaluate (data.x.get k) p.toList) ∧
      (∀ p, (Problem.ofModel model data).cost p = .ok (cost p)) ∧
      Linearization.of (Problem.ofModel model data) params = .ok linearization ∧
      (∀ (k : Fin data.size) (i : Fin model.arity),
        HasDerivAt (fun t => (residuals (params.set i t)).get k)
          (linearization.jacobian.entry k i) (params.get i)) ∧
      (∀ i : Fin model.arity, HasDerivAt (fun t => cost (params.set i t))
        (linearization.gradient.get i) (params.get i)) ∧
      linearization.hessian.toMatrix.IsSymm ∧ linearization.hessian.toMatrix.PosSemidef ∧
      linearization.hessian.toMatrix =
        linearization.jacobian.toMatrixᵀ * linearization.jacobian.toMatrix := by
  obtain ⟨linearization, linearized, residuals, jacobian⟩ :=
    model.linearized_ofModel data params
  have slopes (k : Fin data.size) (i : Fin model.arity) :
      HasDerivAt (fun t => (model.residuals data (params.set i t)).get k)
        (linearization.jacobian.entry k i) (params.get i) := by
    rw [jacobian]
    exact model.hasDerivAt_residual data (regular k i)
  have product : linearization.hessian.toMatrix =
      linearization.jacobian.toMatrixᵀ * linearization.jacobian.toMatrix := by
    rw [linearization.hessian_eq, DenseMatrix.toMatrix_gram]
  refine ⟨model.residuals data, fun p => Problem.halfSquare (model.residuals data p),
    linearization, model.residuals_ofModel data, model.get_residuals data, model.cost_ofModel data,
    linearized, slopes, fun i => ?_, ?_, ?_, product⟩
  · have along := hasDerivAt_halfSquare fun k => slopes k i
    rwa [set_get_self, ← residuals, ← Linearization.gradient_apply] at along
  · rw [linearization.hessian_eq]
    exact DenseMatrix.isSymm_gram _
  · rw [product, ← conjTranspose_eq_transpose_of_trivial]
    exact posSemidef_conjTranspose_mul_self _

noncomputable def scaledCube : Model ℝ where
  source := "(param0 / x) ^ 3 * sqrt(param1)"
  formula := .binary .mul (.binary .pow (.binary .div (.param 0) .sample) (.number 3))
    (.call .sqrt (.param 1))
  arity := 2
  arity_ge := by decide
  arity_le := by decide
  parameters_eq := by decide

def twoSamples : Dataset ℝ where
  rows := [(2, 5), (1, 7)]
  nonempty := List.cons_ne_nil _ _
  finite _ _ := ⟨rfl, rfl⟩

theorem linearization_differentiates_scaledCube :
    (∀ (k : Fin 2) (i : Fin 2), scaledCube.formula.Regular i (twoSamples.x.get k) [-4, 9]) ∧
    ∃ (cost : Vector ℝ 2 → ℝ) (linearization : Linearization ℝ 2 2),
      (∀ p, (Problem.ofModel scaledCube twoSamples).cost p = .ok (cost p)) ∧
      Linearization.of (Problem.ofModel scaledCube twoSamples) #v[-4, 9] = .ok linearization ∧
      HasDerivAt (fun t => cost #v[t, 9]) (linearization.gradient.get 0) (-4) ∧
      HasDerivAt (fun t => cost #v[-4, t]) (linearization.gradient.get 1) 9 := by
  have regular (k : Fin 2) (i : Fin 2) :
      scaledCube.formula.Regular i (twoSamples.x.get k) [-4, 9] := by
    have nonzero : twoSamples.x.get k ≠ 0 := by
      fin_cases k
      · exact two_ne_zero
      · exact one_ne_zero
    have quotient : (-4 : ℝ) / twoSamples.x.get k ≠ 0 :=
      div_ne_zero (neg_ne_zero.mpr four_ne_zero) nonzero
    refine ⟨⟨⟨trivial, trivial, nonzero⟩, trivial, .inr ⟨rfl, 3, ?_, .inl quotient⟩⟩,
      ⟨trivial, ?_⟩, trivial⟩
    · simp [Formula.evaluate]
    · simp [Formula.evaluate, Elementary.Regular]
  obtain ⟨_, cost, linearization, -, -, costs, linearized, -, gradient, -⟩ :=
    linearization_differentiates scaledCube twoSamples #v[-4, 9] regular
  exact ⟨regular, cost, linearization, costs, linearized, gradient (0 : Fin 2),
    gradient (1 : Fin 2)⟩

end Model

end LeastSquares
