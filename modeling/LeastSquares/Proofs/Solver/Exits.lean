import LeastSquares.Proofs.MachineNumbers
import LeastSquares.Proofs.Solver.Stopping

namespace LeastSquares

variable {α : Type} [Scalar α] {problem : Problem α} {settings : Settings α}

structure Outcome.Truthful (problem : Problem α) (settings : Settings α) (initial : List α)
    (outcome : Outcome α problem.residualCount problem.parameterCount) : Prop where
  counted : outcome.iterations ≤ settings.maxIterations
  length_params : outcome.params.toList.length = initial.length
  gradientTolerance : outcome.termination = .gradientTolerance →
    ∃ linearization, Linearization.of problem outcome.params = .ok linearization ∧
      ∀ i, Scalar.isNaN (linearization.gradient.get i) = false ∧
        Scalar.abs (linearization.gradient.get i) < settings.gradientTolerance
  nonFiniteGradient : outcome.termination = .nonFiniteGradient ↔
    ∃ proposals head, Visits problem settings initial proposals head ∧
      ∃ i, Scalar.isNaN (head.linearization.gradient.get i) = true
  nonFiniteGradient_at {proposals : List (Proposal α problem.parameterCount)} {head : Head problem} :
    Visits problem settings initial proposals head →
      (∃ i, Scalar.isNaN (head.linearization.gradient.get i) = true) →
        outcome.params = head.search.params ∧
          Linearization.of problem outcome.params = .ok head.linearization
  maxIterations : outcome.termination = .maxIterations →
    outcome.iterations = settings.maxIterations ∧
      ∃ linearization, Linearization.of problem outcome.params = .ok linearization ∧
        (∀ i, Scalar.isNaN (linearization.gradient.get i) = false) ∧
        ∃ i, ¬ Scalar.abs (linearization.gradient.get i) < settings.gradientTolerance
  stepTolerance : outcome.termination = .stepTolerance →
    1 ≤ outcome.iterations ∧
      ∃ proposals head step, Visits problem settings initial proposals head ∧
        outcome.iterations = proposals.length + 1 ∧ head.Solves step ∧
        outcome.params = (head.proposed step).params ∧
        (head.proposed step).stepLength ≤ settings.stepTolerance

section

variable [OrderLaws α] {initial : List α} {proposals : List (Proposal α problem.parameterCount)}
  {head : Head problem}

theorem Head.stop?_eq_nonFiniteGradient_iff : head.stop? settings = some .nonFiniteGradient ↔
    ∃ i, Scalar.isNaN (head.linearization.gradient.get i) = true := by
  rw [stop?_eq_nonFiniteGradient, ← isNaN_infNorm_iff]
  rfl

theorem Visits.minimize_nonFinite (visits : Visits problem settings initial proposals head)
    (poisoned : ∃ i, Scalar.isNaN (head.linearization.gradient.get i) = true) :
    minimize problem settings initial = .ok (head.outcome .nonFiniteGradient) := by
  rw [visits.minimize_eq]
  exact Head.run_stopped (Head.stop?_eq_nonFiniteGradient_iff.mpr poisoned) _

theorem Head.small_gradient (found : head.stop? settings = some .gradientTolerance)
    (i : Fin problem.parameterCount) :
    Scalar.isNaN (head.linearization.gradient.get i) = false ∧
      Scalar.abs (head.linearization.gradient.get i) < settings.gradientTolerance := by
  obtain ⟨number, small⟩ := stop?_eq_gradientTolerance.mp found
  have numbers := number_gradient number
  exact ⟨numbers i, ((infNorm_of_numbers numbers).2 _ |>.mp small).2 i⟩

theorem Head.large_gradient (nonempty : 0 < problem.parameterCount)
    (going : head.stop? settings = none) :
    ∃ i, ¬ Scalar.abs (head.linearization.gradient.get i) < settings.gradientTolerance := by
  obtain ⟨number, large⟩ := stop?_eq_none.mp going
  by_contra none
  apply large
  apply (infNorm_lt_iff nonempty (number_gradient number) _).mpr
  intro i
  by_contra small
  exact none ⟨i, small⟩

theorem Exit.truthful (nonempty : 0 < problem.parameterCount)
    {outcome : Outcome α problem.residualCount problem.parameterCount}
    (visits : Visits problem settings initial proposals head)
    (left : Exit settings head (settings.maxIterations - proposals.length) outcome)
    (ended : minimize problem settings initial = .ok outcome) :
    outcome.Truthful problem settings initial where
  counted := by
    by_cases short : outcome.termination = .stepTolerance
    · obtain ⟨remaining, tried⟩ := left.finished_of short
      rw [(Head.attempt_short tried).1, visits.iterations]
      omega
    · rw [left.eq_outcome short]
      exact visits.iterations.trans_le visits.length_le
  length_params := by
    obtain ⟨start, first, rfl, -⟩ := visits
    rw [Vector.length_toList, Vector.length_toList]
  gradientTolerance reason := by
    have same := left.eq_outcome (by rw [reason]; decide)
    have found := left.stop?_eq (.inl reason)
    rw [reason] at found
    rw [same]
    exact ⟨head.linearization, visits.fresh, Head.small_gradient found⟩
  nonFiniteGradient := by
    constructor
    · intro reason
      have found := left.stop?_eq (.inr reason)
      rw [reason] at found
      exact ⟨proposals, head, visits, Head.stop?_eq_nonFiniteGradient_iff.mp found⟩
    · rintro ⟨_, other, visited, poisoned⟩
      rw [visited.minimize_nonFinite poisoned] at ended
      obtain rfl := Except.ok.inj ended
      rfl
  nonFiniteGradient_at visited poisoned := by
    rw [visited.minimize_nonFinite poisoned] at ended
    obtain rfl := Except.ok.inj ended
    exact ⟨rfl, visited.fresh⟩
  maxIterations reason := by
    obtain ⟨going, exhausted⟩ := left.capped_of reason
    have within := visits.length_le
    rw [left.eq_outcome (by rw [reason]; decide)]
    refine ⟨visits.iterations.trans (by omega), head.linearization, visits.fresh, ?_, ?_⟩
    · exact Head.number_gradient (Head.stop?_eq_none.mp going).1
    · exact Head.large_gradient nonempty going
  stepTolerance reason := by
    obtain ⟨-, tried⟩ := left.finished_of reason
    obtain ⟨iterations, step, solved, params, short⟩ := Head.attempt_short tried
    rw [visits.iterations] at iterations
    refine ⟨by omega, proposals, head, step, visits, iterations, solved, params, short⟩

end

/-- The loop is bounded, and the reason it gives for its end is true. -/
theorem minimize_truthful [OrderLaws α] (problem : Problem α) (settings : Settings α)
    (initial : List α) (nonempty : 0 < problem.parameterCount) :
    (initial.length = problem.parameterCount →
      (∀ proposals head, Visits problem settings initial proposals head →
        head.search.iterations = proposals.length ∧ proposals.length ≤ settings.maxIterations) ∧
      ((∃ start cause, start.toList = initial ∧
          Head.initial problem settings.initialDampingScale start = .error cause ∧
          minimize problem settings initial = .error cause) ∨
        ∃ proposals last solves, Visits problem settings initial proposals last ∧
          Ending settings last (settings.maxIterations - proposals.length) solves
            (minimize problem settings initial) ∧
          proposals.length + solves ≤ settings.maxIterations) ∧
      ∀ outcome, minimize problem settings initial = .ok outcome →
        outcome.Truthful problem settings initial) ∧
    (initial.length ≠ problem.parameterCount →
      minimize problem settings initial =
        .error (.parameterCount problem.parameterCount initial.length)) := by
  refine ⟨fun fits => ⟨fun proposals head visits => ?_, ?_, fun outcome ended => ?_⟩,
    minimize_refused⟩
  · exact ⟨visits.iterations, visits.length_le⟩
  · rcases minimize_ends fits with failed | ⟨proposals, last, solves, visits, ending⟩
    · exact .inl failed
    · refine .inr ⟨proposals, last, solves, visits, ending, ?_⟩
      have within := visits.length_le
      have remaining := ending.solves_le
      omega
  · obtain ⟨proposals, last, visits, left⟩ := minimize_ok ended
    exact left.truthful nonempty visits ended

theorem minimize_truthful_reasons :
    let line : Problem Float := .linear #v[#v[-1.0]] #v[0.0]
    let reached (reason : Termination) := ∃ settings initial outcome,
      minimize line settings initial = .ok outcome ∧ outcome.termination = reason ∧
        outcome.Truthful line settings initial
    reached .gradientTolerance ∧ reached .nonFiniteGradient ∧ reached .stepTolerance ∧
      reached .maxIterations ∧ minimize line .standard [] = .error (.parameterCount 1 0) := by
  intro line reached
  have truthful := fun settings initial => minimize_truthful line settings initial (by decide)
  have reach {reason} (settings initial) (fits : initial.length = 1)
      (found : (minimize line settings initial).toOption.map (·.termination) = some reason) :
      reached reason := by
    obtain ⟨outcome, ended, reason⟩ := Except.ok_of_toOption found
    exact ⟨settings, initial, outcome, ended, reason,
      ((truthful settings initial).1 fits).2.2 outcome ended⟩
  refine ⟨?_, ?_, ?_, ?_, (truthful .standard []).2 (by decide)⟩
  · exact reach .standard [0.0] rfl (by decide +kernel)
  · exact reach .standard [Scalar.nan] rfl (by decide +kernel)
  · exact reach ⟨1, 0.0, 1.0, 3.0⟩ [1.0] rfl (by decide +kernel)
  · exact reach ⟨0, Scalar.nan, Scalar.nan, 1.0⟩ [1.0] rfl (by decide +kernel)

end LeastSquares
