import LeastSquares.Proofs.Solver.Path

namespace LeastSquares

variable {α : Type} [Scalar α] {problem : Problem α} {settings : Settings α}

def Head.Fresh (head : Head problem) : Prop :=
  Linearization.of problem head.search.params = .ok head.linearization

/-- The head that a minimization comes to after some proposals. -/
def Visits (problem : Problem α) (settings : Settings α) (initial : List α)
    (proposals : List (Proposal α problem.parameterCount)) (head : Head problem) : Prop :=
  ∃ (start : Vector α problem.parameterCount) (first : Head problem), start.toList = initial ∧
    Head.initial problem settings.initialDampingScale start = .ok first ∧
    Path settings first proposals head ∧ proposals.length ≤ settings.maxIterations

theorem Linearization.of_eq_ok {params : Vector α problem.parameterCount}
    {linearization : Linearization α problem.residualCount problem.parameterCount} :
    Linearization.of problem params = .ok linearization ↔
      ∃ residuals, problem.residuals params = .ok residuals ∧
        Linearization.withResiduals problem params residuals = .ok linearization := by
  unfold Linearization.of
  cases problem.residuals params <;> simp

theorem Linearization.withResiduals_residuals {params : Vector α problem.parameterCount}
    {residuals : Vector α problem.residualCount}
    {linearization : Linearization α problem.residualCount problem.parameterCount}
    (linearized : Linearization.withResiduals problem params residuals = .ok linearization) :
    linearization.residuals = residuals := by
  obtain ⟨jacobian, -, rfl⟩ := Except.map_eq_ok.mp linearized
  rfl

theorem Problem.cost_eq_ok {params : Vector α problem.parameterCount}
    {residuals : Vector α problem.residualCount}
    (evaluated : problem.residuals params = .ok residuals) :
    problem.cost params = .ok (Problem.halfSquare residuals) := by
  rw [Problem.cost, evaluated]
  rfl

namespace Head

theorem initial_eq_ok {scale : α} {start : Vector α problem.parameterCount} {head : Head problem}
    (found : Head.initial problem scale start = .ok head) :
    head.search.params = start ∧ head.Fresh := by
  obtain ⟨linearization, linearized, rfl⟩ := Except.map_eq_ok.mp found
  exact ⟨rfl, linearized⟩

theorem Fresh.round {head next : Head problem} {proposal : Proposal α problem.parameterCount}
    (fresh : head.Fresh) (round : Round settings head proposal next) : next.Fresh := by
  obtain ⟨-, -, residuals, evaluated, ⟨-, -, _, linearized, rfl⟩ | ⟨-, -, rfl⟩⟩ := round.inversion
  · exact Linearization.of_eq_ok.mpr ⟨residuals, evaluated, linearized⟩
  · exact fresh

theorem Fresh.residuals_eq {head : Head problem} (fresh : head.Fresh) :
    problem.residuals head.search.params = .ok head.linearization.residuals := by
  obtain ⟨residuals, evaluated, linearized⟩ := Linearization.of_eq_ok.mp fresh
  rw [Linearization.withResiduals_residuals linearized, evaluated]

end Head

namespace Visits

variable {initial : List α} {proposals : List (Proposal α problem.parameterCount)}
  {head : Head problem}

theorem minimize_eq (visits : Visits problem settings initial proposals head) :
    minimize problem settings initial =
      head.run settings (settings.maxIterations - proposals.length) := by
  obtain ⟨start, first, rfl, found, path, within⟩ := visits
  have same : (⟨start.toList.toArray, by simp⟩ : Vector α problem.parameterCount) = start := rfl
  rw [minimize, dif_pos (by simp), same, found]
  exact path.run_eq within

theorem fresh (visits : Visits problem settings initial proposals head) : head.Fresh := by
  obtain ⟨start, first, -, found, path, -⟩ := visits
  exact path.invariant Head.Fresh.round (Head.initial_eq_ok found).2

end Visits

theorem minimize_refused {initial : List α} (differs : initial.length ≠ problem.parameterCount) :
    minimize problem settings initial =
      .error (.parameterCount problem.parameterCount initial.length) := by
  rw [minimize, dif_neg differs]

theorem minimize_ends {initial : List α} (fits : initial.length = problem.parameterCount) :
    (∃ start cause, start.toList = initial ∧
      Head.initial problem settings.initialDampingScale start = .error cause ∧
      minimize problem settings initial = .error cause) ∨
    ∃ proposals last solves, Visits problem settings initial proposals last ∧
      Ending settings last (settings.maxIterations - proposals.length) solves
        (minimize problem settings initial) := by
  rw [minimize, dif_pos fits]
  split
  · next cause failed => exact .inl ⟨_, cause, rfl, failed, rfl⟩
  · next first found =>
      obtain ⟨proposals, last, solves, path, within, ending⟩ :=
        first.run_ends settings settings.maxIterations
      exact .inr ⟨proposals, last, solves, ⟨_, first, rfl, found, path, within⟩, ending⟩

theorem minimize_ok {initial : List α}
    {outcome : Outcome α problem.residualCount problem.parameterCount}
    (ended : minimize problem settings initial = .ok outcome) :
    ∃ proposals last, Visits problem settings initial proposals last ∧
      Exit settings last (settings.maxIterations - proposals.length) outcome := by
  by_cases fits : initial.length = problem.parameterCount
  · rcases minimize_ends fits with
      ⟨_, _, -, -, failed⟩ | ⟨proposals, last, solves, visits, ending⟩
    · rw [failed] at ended
      cases ended
    · rw [ended] at ending
      exact ⟨proposals, last, visits, ending.exit⟩
  · rw [minimize_refused fits] at ended
    cases ended

theorem Exit.residuals_eq {head : Head problem} {budget : Nat}
    {outcome : Outcome α problem.residualCount problem.parameterCount} (fresh : head.Fresh)
    (left : Exit settings head budget outcome) :
    problem.residuals outcome.params = .ok outcome.residuals ∧
      outcome.cost = Problem.halfSquare outcome.residuals := by
  cases left with
  | stopped found => exact ⟨fresh.residuals_eq, rfl⟩
  | capped going => exact ⟨fresh.residuals_eq, rfl⟩
  | finished going tried =>
      obtain ⟨evaluated, cost, -⟩ := Head.attempt_finished tried
      exact ⟨evaluated, cost⟩

theorem Exit.eq_outcome {head : Head problem} {budget : Nat}
    {outcome : Outcome α problem.residualCount problem.parameterCount}
    (left : Exit settings head budget outcome) (long : outcome.termination ≠ .stepTolerance) :
    outcome = head.outcome outcome.termination := by
  cases left with
  | stopped found => rfl
  | capped going => rfl
  | finished going tried => exact absurd (Head.attempt_finished tried).2.2 long

/-- Every head of the loop holds the linearization at its parameters, and every outcome the
residuals and the cost at its own, which the last kept proposal led to. -/
theorem minimize_fresh (problem : Problem α) (settings : Settings α) (initial : List α) :
    (∀ proposals head, Visits problem settings initial proposals head →
      minimize problem settings initial =
          head.run settings (settings.maxIterations - proposals.length) ∧
        Linearization.of problem head.search.params = .ok head.linearization) ∧
    ∀ outcome, minimize problem settings initial = .ok outcome →
      problem.residuals outcome.params = .ok outcome.residuals ∧
        outcome.cost = Problem.halfSquare outcome.residuals ∧
        problem.cost outcome.params = .ok outcome.cost ∧
        (outcome.termination ≠ .stepTolerance →
          ∃ start proposals head, start.toList = initial ∧
            Visits problem settings initial proposals head ∧
            outcome = head.outcome outcome.termination ∧
            outcome.params = Proposal.lastKept start proposals) := by
  refine ⟨fun proposals head visits => ⟨visits.minimize_eq, visits.fresh⟩, fun outcome ended => ?_⟩
  obtain ⟨proposals, last, visits, left⟩ := minimize_ok ended
  obtain ⟨evaluated, cost⟩ := left.residuals_eq visits.fresh
  refine ⟨evaluated, cost, ?_, fun long => ?_⟩
  · rw [cost]
    exact Problem.cost_eq_ok evaluated
  · have same := left.eq_outcome long
    have ⟨start, first, spelt, found, path, _⟩ := visits
    refine ⟨start, proposals, last, spelt, visits, same, ?_⟩
    rw [same, ← (Head.initial_eq_ok found).1, ← path.params_eq]
    rfl

end LeastSquares
