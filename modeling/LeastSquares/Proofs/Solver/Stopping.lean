import LeastSquares.Proofs.Linear.Accumulation
import LeastSquares.Proofs.Solver.Freshness

namespace LeastSquares

variable {α : Type} [Scalar α] {problem : Problem α} {settings : Settings α}

namespace Head

variable {head : Head problem}

theorem stop?_eq_none : head.stop? settings = none ↔
    Scalar.isNaN head.linearization.gradientNorm = false ∧
      ¬ head.linearization.gradientNorm < settings.gradientTolerance := by
  unfold stop?
  dsimp only
  split_ifs with poisoned small <;> simp_all

theorem stop?_eq_nonFiniteGradient : head.stop? settings = some .nonFiniteGradient ↔
    Scalar.isNaN head.linearization.gradientNorm = true := by
  unfold stop?
  dsimp only
  split_ifs with poisoned small <;> simp_all

theorem stop?_eq_gradientTolerance : head.stop? settings = some .gradientTolerance ↔
    Scalar.isNaN head.linearization.gradientNorm = false ∧
      head.linearization.gradientNorm < settings.gradientTolerance := by
  unfold stop?
  dsimp only
  split_ifs with poisoned small <;> simp_all

theorem stop?_eq_some {reason : Termination} (found : head.stop? settings = some reason) :
    reason = .nonFiniteGradient ∨ reason = .gradientTolerance := by
  unfold stop? at found
  dsimp only at found
  split_ifs at found
  · exact .inl (Option.some.inj found).symm
  · exact .inr (Option.some.inj found).symm

theorem number_gradient [NamedNaN α]
    (number : Scalar.isNaN head.linearization.gradientNorm = false)
    (i : Fin problem.parameterCount) :
    Scalar.isNaN (head.linearization.gradient.get i) = false := by
  by_contra poisoned
  rw [Bool.not_eq_false] at poisoned
  have spoiled : Scalar.isNaN head.linearization.gradientNorm = true := isNaN_infNorm i poisoned
  rw [number] at spoiled
  cases spoiled

theorem run_stopped {reason : Termination} (found : head.stop? settings = some reason)
    (budget : Nat) : head.run settings budget = .ok (head.outcome reason) := by
  cases budget with
  | zero => rw [run, found]
  | succ budget => rw [run, found]

theorem run_zero (settings : Settings α) (head : Head problem) :
    ∃ reason, reason ≠ .stepTolerance ∧ head.run settings 0 = .ok (head.outcome reason) := by
  cases found : head.stop? settings with
  | none =>
      rw [run, found]
      exact ⟨.maxIterations, by decide, rfl⟩
  | some reason =>
      refine ⟨reason, ?_, run_stopped found 0⟩
      rcases stop?_eq_some found with rfl | rfl <;> decide

theorem initial_search {scale : α} {start : Vector α problem.parameterCount} {head : Head problem}
    (found : Head.initial problem scale start = .ok head) :
    head.search = .start start (initialDamping head.linearization.hessian scale) := by
  obtain ⟨linearization, -, rfl⟩ := Except.map_eq_ok.mp found
  rfl

theorem attempt_short {outcome : Outcome α problem.residualCount problem.parameterCount}
    (tried : head.attempt settings = .ok (.finished outcome)) :
    outcome.iterations = head.search.iterations + 1 ∧
      ∃ step, head.Solves step ∧ outcome.params = (head.proposed step).params ∧
        (head.proposed step).stepLength ≤ settings.stepTolerance := by
  obtain ⟨step, residuals, solved, -, ⟨short, same⟩ | ⟨-, -, _, -, impossible⟩ |
    ⟨-, -, impossible⟩⟩ := attempt_cases tried
  · cases same
    exact ⟨rfl, step, solved, rfl, short⟩
  · cases impossible
  · cases impossible

end Head

section Reasons

variable {head : Head problem} {budget : Nat}
  {outcome : Outcome α problem.residualCount problem.parameterCount}

theorem Exit.stop?_eq (left : Exit settings head budget outcome)
    (reason : outcome.termination = .gradientTolerance ∨ outcome.termination = .nonFiniteGradient) :
    head.stop? settings = some outcome.termination := by
  cases left with
  | stopped found => exact found
  | capped going => rcases reason with impossible | impossible <;> cases impossible
  | finished going tried =>
      rw [(Head.attempt_finished tried).2.2] at reason
      rcases reason with impossible | impossible <;> cases impossible

theorem Exit.capped_of (left : Exit settings head budget outcome)
    (reason : outcome.termination = .maxIterations) :
    head.stop? settings = none ∧ budget = 0 := by
  cases left with
  | stopped found =>
      obtain rfl : _ = Termination.maxIterations := reason
      rcases Head.stop?_eq_some found with impossible | impossible <;> cases impossible
  | capped going => exact ⟨going, rfl⟩
  | finished going tried =>
      rw [(Head.attempt_finished tried).2.2] at reason
      cases reason

theorem Exit.finished_of (left : Exit settings head budget outcome)
    (reason : outcome.termination = .stepTolerance) :
    0 < budget ∧ head.attempt settings = .ok (.finished outcome) := by
  cases left with
  | stopped found =>
      obtain rfl : _ = Termination.stepTolerance := reason
      rcases Head.stop?_eq_some found with impossible | impossible <;> cases impossible
  | capped going => cases reason
  | finished going tried => exact ⟨Nat.succ_pos _, tried⟩

end Reasons

theorem Round.going {head next : Head problem} {proposal : Proposal α problem.parameterCount}
    (round : Round settings head proposal next) : head.stop? settings = none := by
  cases round with
  | accepted going solved tried => exact going
  | rejected going solved tried => exact going

theorem Round.iterations {head next : Head problem} {proposal : Proposal α problem.parameterCount}
    (round : Round settings head proposal next) :
    next.search.iterations = head.search.iterations + 1 := by
  obtain ⟨-, -, residuals, -, ⟨-, -, _, -, rfl⟩ | ⟨-, -, rfl⟩⟩ := round.inversion
  · rfl
  · rfl

theorem Path.iterations {head last : Head problem}
    {proposals : List (Proposal α problem.parameterCount)}
    (path : Path settings head proposals last) :
    last.search.iterations = head.search.iterations + proposals.length := by
  induction path with
  | here head => rfl
  | next round rest ih =>
      rw [ih, round.iterations, List.length_cons]
      omega

theorem Visits.length_le {initial : List α} {proposals : List (Proposal α problem.parameterCount)}
    {head : Head problem} (visits : Visits problem settings initial proposals head) :
    proposals.length ≤ settings.maxIterations := by
  obtain ⟨_, _, -, -, -, within⟩ := visits
  exact within

theorem Visits.iterations {initial : List α} {proposals : List (Proposal α problem.parameterCount)}
    {head : Head problem} (visits : Visits problem settings initial proposals head) :
    head.search.iterations = proposals.length := by
  obtain ⟨start, first, -, found, path, -⟩ := visits
  rw [path.iterations, Head.initial_search found]
  exact Nat.zero_add _

end LeastSquares
