import LeastSquares.Proofs.Solver.Freshness
import LeastSquares.Proofs.Solver.Reduction

namespace LeastSquares

open Matrix

structure Problem.Total {α : Type} [Scalar α] (problem : Problem α) : Prop where
  residuals_ok : ∀ params, ∃ residuals, problem.residuals params = .ok residuals
  jacobian_ok : ∀ params, ∃ jacobian, problem.jacobian params = .ok jacobian

namespace Problem.Total

variable {α : Type} [Scalar α] {problem : Problem α}

theorem withResiduals_ok (total : problem.Total) (params : Vector α problem.parameterCount)
    (residuals : Vector α problem.residualCount) :
    ∃ linearization, Linearization.withResiduals problem params residuals = .ok linearization := by
  obtain ⟨jacobian, evaluated⟩ := total.jacobian_ok params
  rw [Linearization.withResiduals, evaluated]
  exact ⟨_, rfl⟩

theorem initial_ok (total : problem.Total) (scale : α)
    (start : Vector α problem.parameterCount) :
    ∃ head, Head.initial problem scale start = .ok head := by
  obtain ⟨residuals, evaluated⟩ := total.residuals_ok start
  obtain ⟨linearization, linearized⟩ := total.withResiduals_ok start residuals
  rw [Head.initial, Linearization.of_eq_ok.mpr ⟨residuals, evaluated, linearized⟩]
  exact ⟨_, rfl⟩

theorem linear {m n : Nat} (a : DenseMatrix α m n) (b : Vector α m) :
    (Problem.linear a b).Total :=
  ⟨fun _ => ⟨_, rfl⟩, fun _ => ⟨_, rfl⟩⟩

end Problem.Total

theorem foldl_sub_eq {n : Nat} (terms : Vector ℝ n) (start : ℝ) :
    terms.foldl (fun rest term => rest - term) start = start - ∑ j, terms.get j := by
  have list (terms : List ℝ) (start : ℝ) :
      terms.foldl (fun rest term => rest - term) start = start - terms.sum := by
    induction terms generalizing start with
    | nil => simp
    | cons term terms ih =>
        rw [List.foldl_cons, ih, List.sum_cons]
        ring
  rw [← Vector.foldl_toList, list, sum_toList]

variable {m n : Nat} {a : DenseMatrix ℝ m n} {b : Vector ℝ m} {params : Vector ℝ n}

theorem Problem.linear_residuals {residuals : Vector ℝ m}
    (evaluated : (Problem.linear a b).residuals params = .ok residuals) :
    residuals.get = b.get - a.toMatrix *ᵥ params.get := by
  obtain rfl := Except.ok.inj evaluated
  funext k
  rw [get_zipWith, foldl_sub_eq]
  simp only [get_zipWith]
  rfl

theorem Linearization.of_linear {linearization : Linearization ℝ m n}
    (linearized : Linearization.of (Problem.linear a b) params = .ok linearization) :
    linearization.residuals.get = b.get - a.toMatrix *ᵥ params.get ∧
      linearization.jacobian.toMatrix = -a.toMatrix := by
  obtain ⟨residuals, evaluated, found⟩ := Linearization.of_eq_ok.mp linearized
  obtain ⟨_, same, rfl⟩ := Except.map_eq_ok.mp found
  obtain rfl := Except.ok.inj same
  exact ⟨Problem.linear_residuals evaluated, a.toMatrix_neg⟩

theorem Problem.linear_visits (a : DenseMatrix ℝ m n) (b : Vector ℝ m) (settings : Settings ℝ)
    (start : Vector ℝ n) :
    ∃ head, Visits (Problem.linear a b) settings start.toList [] head ∧
      Linearization.of (Problem.linear a b) start = .ok head.linearization := by
  obtain ⟨head, found⟩ :=
    (Problem.Total.linear a b).initial_ok settings.initialDampingScale start
  have visits : Visits (Problem.linear a b) settings start.toList [] head :=
    ⟨start, head, rfl, found, .here head, Nat.zero_le _⟩
  have fresh := visits.fresh
  rw [Head.Fresh, (Head.initial_eq_ok found).1] at fresh
  exact ⟨head, visits, fresh⟩

noncomputable def underdetermined : Problem ℝ :=
  .linear (.replicate 1 (.replicate 2 1)) (.replicate 1 1)

theorem underdetermined_linearized {linearization : Linearization ℝ 1 2}
    (linearized : Linearization.of underdetermined #v[0, 0] = .ok linearization) :
    (∀ i, |linearization.gradient.get i| = 1) ∧ linearization.hessian.toMatrix.det = 0 := by
  obtain ⟨residuals, jacobian⟩ := Linearization.of_linear linearized
  have residual : linearization.residuals.get 0 = 1 := by
    rw [residuals]
    simp [mulVec, dotProduct, get_eq_getElem]
  have column (i : Fin 2) : linearization.jacobian.entry 0 i = -1 := by
    refine (congrFun (congrFun jacobian 0) i).trans (congrArg Neg.neg ?_)
    fin_cases i <;> rfl
  constructor
  · intro i
    rw [Linearization.gradient_apply, dotProduct, Fin.sum_univ_one, column, residual, mul_one,
      abs_neg, abs_one]
  · rw [linearization.hessian_eq, DenseMatrix.toMatrix_gram]
    refine det_zero_of_row_eq Fin.zero_ne_one (funext fun j => ?_)
    simp only [mul_apply, transpose_apply, DenseMatrix.toMatrix_apply, Fin.sum_univ_one, column]

theorem underdetermined_visits (settings : Settings ℝ) :
    ∃ head, Visits underdetermined settings [0, 0] [] head ∧
      (∀ i, |head.linearization.gradient.get i| = 1) ∧
      head.linearization.hessian.toMatrix.det = 0 := by
  obtain ⟨head, visits, linearized⟩ :=
    Problem.linear_visits (.replicate 1 (.replicate 2 1)) (.replicate 1 1) settings #v[0, 0]
  exact ⟨head, visits, underdetermined_linearized linearized⟩

end LeastSquares
