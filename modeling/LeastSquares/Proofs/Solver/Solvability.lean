import LeastSquares.Proofs.Linear.Definiteness
import LeastSquares.Proofs.Solver.Decisions
import LeastSquares.Proofs.Solver.LinearProblems
import LeastSquares.Proofs.Solver.PositiveDamping

namespace LeastSquares

open Matrix

namespace Problem.Total

variable {α : Type} [Scalar α] {problem : Problem α}

theorem attempt_ok (total : problem.Total) {settings : Settings α} {head : Head problem}
    {step : Vector α problem.parameterCount} (solved : head.Solves step) :
    ∃ trial, head.attempt settings = .ok trial := by
  obtain ⟨residuals, evaluated⟩ := total.residuals_ok (head.proposed step).params
  obtain ⟨linearization, linearized⟩ :=
    total.withResiduals_ok (head.proposed step).params residuals
  rw [solved.attempt_eq evaluated, linearized]
  split_ifs
  · exact ⟨_, rfl⟩
  · exact ⟨_, rfl⟩
  · exact ⟨_, rfl⟩

theorem minimize_ok {settings : Settings α} {initial : List α} (total : problem.Total)
    (fits : initial.length = problem.parameterCount)
    (solvable : ∀ proposals head, Visits problem settings initial proposals head →
      head.stop? settings = none → ∃ step, head.Solves step) :
    ∃ outcome, minimize problem settings initial = .ok outcome := by
  rcases minimize_ends fits with
    ⟨start, cause, -, failed, -⟩ | ⟨proposals, last, solves, visits, ending⟩
  · obtain ⟨head, found⟩ := total.initial_ok settings.initialDampingScale start
    cases failed.symm.trans found
  · generalize minimize problem settings initial = result at ending ⊢
    generalize settings.maxIterations - proposals.length = budget at ending
    cases ending with
    | stopped found => exact ⟨_, rfl⟩
    | capped going => exact ⟨_, rfl⟩
    | finished going tried => exact ⟨_, rfl⟩
    | failed going tried =>
        obtain ⟨step, solved⟩ := solvable proposals last visits going
        obtain ⟨trial, succeeds⟩ := total.attempt_ok solved
        cases tried.symm.trans succeeds

end Problem.Total

theorem dampedStep_of_factor {n : Nat} {hessian : DenseMatrix ℝ n n} {damping : ℝ}
    {triangle : Triangular ℝ n}
    (found : Triangular.factor? (hessian.addDiagonal damping) = some triangle)
    (gradient : Vector ℝ n) (iteration : Nat) :
    dampedStep hessian gradient damping iteration =
      .ok (triangle.solveTransposed (triangle.solve (gradient.map (- ·)))) := by
  rw [dampedStep, DenseMatrix.solveSymmetric?, found]

variable {problem : Problem ℝ} {settings : Settings ℝ}

namespace Head

variable (head : Head problem) (damped : 0 < head.search.damping)

include damped

theorem posDef : (head.linearization.hessian.addDiagonal head.search.damping).toMatrix.PosDef := by
  rw [head.linearization.hessian_eq]
  exact DenseMatrix.posDef_gram_addDiagonal _ damped

theorem solvable : ∃ step, head.Solves step := by
  obtain ⟨triangle, factored⟩ := Triangular.factor?_of_posDef (head.posDef damped)
  exact ⟨_, dampedStep_of_factor factored _ _⟩

end Head

section Visited

variable {initial : List ℝ} {proposals : List (Proposal ℝ problem.parameterCount)}
  {head : Head problem} (visits : Visits problem settings initial proposals head)
  (scale : 0 < settings.initialDampingScale) (tolerance : 0 < settings.gradientTolerance)

include visits scale tolerance

theorem Visits.posDef (going : head.stop? settings = none) :
    (head.linearization.hessian.addDiagonal head.search.damping).toMatrix.PosDef :=
  head.posDef (visits.damping_pos scale tolerance going)

theorem Visits.solvable (going : head.stop? settings = none) : ∃ step, head.Solves step :=
  head.solvable (visits.damping_pos scale tolerance going)

end Visited

/-- With a positive scale of the damping and a positive tolerance of the gradient every matrix that a
run solves with is positive definite, so no run fails. -/
theorem minimize_solves (problem : Problem ℝ) (settings : Settings ℝ) (initial : List ℝ)
    (total : problem.Total) (fits : initial.length = problem.parameterCount)
    (scale : 0 < settings.initialDampingScale) (tolerance : 0 < settings.gradientTolerance) :
    (∀ proposals head, Visits problem settings initial proposals head →
      minimize problem settings initial =
        head.run settings (settings.maxIterations - proposals.length) ∧
      (head.stop? settings = none →
        let damped := head.linearization.hessian.addDiagonal head.search.damping
        damped.toMatrix =
            head.linearization.jacobian.toMatrixᵀ * head.linearization.jacobian.toMatrix +
              head.search.damping • 1 ∧
          damped.toMatrix.IsSymm ∧ damped.toMatrix.PosDef ∧
          ∃ triangle, Triangular.factor? damped = some triangle ∧
            (∀ pivot ∈ triangle.pivots, 0 < pivot) ∧
            dampedStep head.linearization.hessian head.linearization.gradient head.search.damping
                (head.search.iterations + 1) =
              .ok (triangle.solveTransposed
                (triangle.solve (head.linearization.gradient.map (- ·)))))) ∧
    ∃ outcome, minimize problem settings initial = .ok outcome := by
  constructor
  · intro proposals head visits
    refine ⟨visits.minimize_eq, fun going => ?_⟩
    have definite := visits.posDef scale tolerance going
    obtain ⟨triangle, factored⟩ := Triangular.factor?_of_posDef definite
    refine ⟨?_, isHermitian_iff_isSymm.mp definite.isHermitian, definite, triangle, factored,
      Triangular.pivots_pos factored, dampedStep_of_factor factored _ _⟩
    rw [DenseMatrix.toMatrix_addDiagonal, head.linearization.hessian_eq, DenseMatrix.toMatrix_gram]
  · exact total.minimize_ok fits fun proposals head visits => visits.solvable scale tolerance

theorem minimize_solves_underdetermined :
    ∃ head, Visits underdetermined .standard [0, 0] [] head ∧
      head.stop? .standard = none ∧ head.linearization.hessian.toMatrix.det = 0 ∧
      (head.linearization.hessian.addDiagonal head.search.damping).toMatrix.PosDef ∧
      (∃ triangle,
        Triangular.factor? (head.linearization.hessian.addDiagonal head.search.damping) =
            some triangle ∧
          ∀ pivot ∈ triangle.pivots, 0 < pivot) ∧
      ∃ outcome, minimize underdetermined .standard [0, 0] = .ok outcome := by
  obtain ⟨head, visits, steep, singular⟩ := underdetermined_visits .standard
  obtain ⟨solvable, succeeds⟩ := minimize_solves underdetermined .standard [0, 0]
    (.linear _ _) rfl standard_scale_pos standard_tolerances.1
  have going : head.stop? .standard = none :=
    Head.going_of_steep (standard_tolerances.2.1.trans_eq (steep (0 : Fin 2)).symm)
  obtain ⟨-, -, definite, triangle, factored, positive, -⟩ := (solvable [] head visits).2 going
  exact ⟨head, visits, going, singular, definite, ⟨triangle, factored, positive⟩, succeeds⟩

end LeastSquares
