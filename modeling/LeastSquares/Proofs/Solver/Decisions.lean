import LeastSquares.Proofs.Solver.Stopping

namespace LeastSquares

variable {α : Type} [Scalar α] {problem : Problem α} {settings : Settings α}

namespace Head

variable {head : Head problem} {step : Vector α problem.parameterCount}
  {residuals : Vector α problem.residualCount}

theorem attempt_of_unsolved {cause : Error α}
    (unsolved : dampedStep head.linearization.hessian head.linearization.gradient
      head.search.damping (head.search.iterations + 1) = .error cause) :
    head.attempt settings = .error cause := by
  have found : dampedStep head.linearization.hessian head.linearization.gradient
      head.search.tick.damping head.search.tick.iterations = .error cause := unsolved
  simp only [attempt, found, bind, Except.bind]

theorem Solves.attempt_of_unevaluated {cause : Error α} (solved : head.Solves step)
    (unevaluated : problem.residuals (head.proposed step).params = .error cause) :
    head.attempt settings = .error cause := by
  have found : dampedStep head.linearization.hessian head.linearization.gradient
      head.search.tick.damping head.search.tick.iterations = .ok step := solved
  unfold proposed at unevaluated
  simp only [attempt, found, unevaluated, bind, Except.bind]

theorem Solves.attempt_eq (solved : head.Solves step)
    (evaluated : problem.residuals (head.proposed step).params = .ok residuals) :
    head.attempt settings =
      if (head.proposed step).stepLength ≤ settings.stepTolerance then
        .ok (.finished
          { params := (head.proposed step).params
            residuals
            cost := Problem.halfSquare residuals
            iterations := head.search.iterations + 1
            termination := .stepTolerance })
      else if ((0 : Nat) : α) < head.gain step residuals then
        (Linearization.withResiduals problem (head.proposed step).params residuals).map
          fun linearization =>
            .accepted
              { search := (head.proposed step).accept (head.gain step residuals)
                linearization }
      else .ok (.rejected { head with search := (head.proposed step).reject }) := by
  have found : dampedStep head.linearization.hessian head.linearization.gradient
      head.search.tick.damping head.search.tick.iterations = .ok step := solved
  unfold proposed at evaluated ⊢
  simp only [attempt, found, evaluated, bind, Except.bind]
  split
  · rfl
  · split
    · cases Linearization.withResiduals problem (head.search.tick.propose step).params residuals with
      | error cause => rfl
      | ok linearization => rfl
    · rfl

/-- A step solved for where the run goes on, with the residuals at its end. It is too long for the
run to end with it, so it is kept or taken back. -/
structure Proposes (settings : Settings α) (head : Head problem)
    (step : Vector α problem.parameterCount) (residuals : Vector α problem.residualCount) :
    Prop where
  going : head.stop? settings = none
  solved : head.Solves step
  evaluated : problem.residuals (head.proposed step).params = .ok residuals
  long : ¬ (head.proposed step).stepLength ≤ settings.stepTolerance

theorem Proposes.attempt_eq (proposes : head.Proposes settings step residuals) :
    head.attempt settings =
      if ((0 : Nat) : α) < head.gain step residuals then
        (Linearization.withResiduals problem (head.proposed step).params residuals).map
          fun linearization =>
            .accepted
              { search := (head.proposed step).accept (head.gain step residuals)
                linearization }
      else .ok (.rejected { head with search := (head.proposed step).reject }) := by
  rw [proposes.solved.attempt_eq proposes.evaluated, if_neg proposes.long]

def Keeps (settings : Settings α) (head : Head problem) (step : Vector α problem.parameterCount)
    (residuals : Vector α problem.residualCount) : Prop :=
  head.Proposes settings step residuals ∧ ∀ next, head.attempt settings ≠ .ok (.rejected next)

theorem keeps_iff : head.Keeps settings step residuals ↔
    head.Proposes settings step residuals ∧ ((0 : Nat) : α) < head.gain step residuals := by
  refine and_congr_right fun proposes => ?_
  have tried := proposes.attempt_eq
  constructor
  · intro kept
    by_contra lost
    rw [if_neg lost] at tried
    exact kept _ tried
  · intro gained next rejected
    rw [if_pos gained, rejected] at tried
    obtain ⟨_, -, impossible⟩ := Except.map_eq_ok.mp tried.symm
    cases impossible

theorem Proposes.kept {jacobian : DenseMatrix α problem.residualCount problem.parameterCount}
    (proposes : head.Proposes settings step residuals)
    (gained : ((0 : Nat) : α) < head.gain step residuals)
    (evaluated : problem.jacobian (head.proposed step).params = .ok jacobian) :
    ∃ next, Round settings head ⟨head.search.params, step, true⟩ next ∧
      next.linearization.residuals = residuals := by
  have tried := proposes.attempt_eq
  rw [if_pos gained, Linearization.withResiduals, evaluated] at tried
  exact ⟨_, .accepted proposes.going proposes.solved tried, rfl⟩

end Head

end LeastSquares
