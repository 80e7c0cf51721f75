import LeastSquares.Proofs.MachineNumbers
import LeastSquares.Proofs.Solver.Decisions

/-!
# Only numbers are kept

Values that are not numbers may come up anywhere in a run, but a step is solved for only where
residuals and Jacobian are numbers throughout, and is kept only if the residuals at its end are.
What is not a number spoils the gradient, which stops the run, or the gain ratio, which is then not
above zero.
-/

namespace LeastSquares

open Scalar

variable {α : Type} [Scalar α] [NaNLaws α] {problem : Problem α} {settings : Settings α}

theorem Linearization.numbers_of_gradient {m n : Nat} {linearization : Linearization α m n}
    (nonempty : 0 < n) (numbers : ∀ j, isNaN (linearization.gradient.get j) = false) :
    (∀ i, isNaN (linearization.residuals.get i) = false) ∧
      ∀ i j, isNaN (linearization.jacobian.entry i j) = false := by
  have column (j : Fin n) (i : Fin m) : isNaN (linearization.jacobian.entry i j) = false ∧
      isNaN (linearization.residuals.get i) = false := by
    have sums := sumsTo_transposeApply linearization.jacobian linearization.residuals j
    rw [← linearization.gradient_eq] at sums
    have entries := sums.numbers (numbers j) i
    rwa [← DenseMatrix.entry_transpose]
  exact ⟨fun i => (column ⟨0, nonempty⟩ i).2, fun i j => (column j i).1⟩

namespace Head

variable {head : Head problem}

theorem numbers_of_gain {step : Vector α problem.parameterCount}
    {residuals : Vector α problem.residualCount}
    (gained : ((0 : Nat) : α) < head.gain step residuals) (i : Fin problem.residualCount) :
    isNaN (residuals.get i) = false := by
  by_contra poisoned
  rw [Bool.not_eq_false] at poisoned
  apply NaNLaws.not_lt (.inr ?_) gained
  have square : isNaN (dot residuals residuals) = true :=
    (sumsTo_dot residuals residuals).isNaN_of_product i (NaNLaws.isNaN_mul (.inl poisoned))
  have actual : isNaN ((head.linearization.sumOfSquares - dot residuals residuals) /
      ((2 : Nat) : α)) = true := NaNLaws.isNaN_div (.inl (NaNLaws.isNaN_sub (.inr square)))
  exact NaNLaws.isNaN_div (.inl actual)

theorem numbers_of_gradientNorm (nonempty : 0 < problem.parameterCount)
    (number : isNaN head.linearization.gradientNorm = false) :
    (∀ i, isNaN (head.linearization.residuals.get i) = false) ∧
      ∀ i j, isNaN (head.linearization.jacobian.entry i j) = false :=
  Linearization.numbers_of_gradient nonempty (number_gradient number)

end Head

theorem Round.numbers (nonempty : 0 < problem.parameterCount) {head next : Head problem}
    {proposal : Proposal α problem.parameterCount} (round : Round settings head proposal next) :
    ∀ i, isNaN (next.linearization.residuals.get i) = false := by
  obtain ⟨-, -, residuals, -, ⟨-, gained, _, linearized, rfl⟩ | ⟨-, -, rfl⟩⟩ := round.inversion
  · rw [Linearization.withResiduals_residuals linearized]
    exact Head.numbers_of_gain gained
  · have number := (Head.stop?_eq_none.mp round.going).1
    exact (Head.numbers_of_gradientNorm nonempty number).1

theorem Path.numbers (nonempty : 0 < problem.parameterCount) {head last : Head problem}
    {proposals : List (Proposal α problem.parameterCount)}
    (path : Path settings head proposals last) :
    last = head ∨ ∀ i, isNaN (last.linearization.residuals.get i) = false := by
  cases path with
  | here => exact .inl rfl
  | next round rest =>
      exact .inr (rest.invariant (fun _ next => next.numbers nonempty) (round.numbers nonempty))

theorem Visits.numbers (nonempty : 0 < problem.parameterCount) {initial : List α}
    {proposals : List (Proposal α problem.parameterCount)} {head : Head problem}
    (visits : Visits problem settings initial proposals head) :
    (∀ i, isNaN (head.linearization.residuals.get i) = false) ∨
      head.stop? settings = some .nonFiniteGradient ∧ head.search.iterations = 0 ∧
        head.search.params.toList = initial := by
  obtain ⟨start, first, rfl, found, path, -⟩ := visits
  rcases path.numbers nonempty with rfl | numbers
  · -- Nothing was tried yet, and the first head may hold anything.
    cases poisoned : isNaN head.linearization.gradientNorm with
    | false => exact .inl (Head.numbers_of_gradientNorm nonempty poisoned).1
    | true =>
        rw [Head.initial_search found]
        exact .inr ⟨Head.stop?_eq_nonFiniteGradient.mpr poisoned, rfl, rfl⟩
  · exact .inl numbers

/-- Steps are solved for from numbers only and lead to numbers if they are kept. An outcome holds
what is not a number only where a step was too short to be judged or the run began there. -/
theorem minimize_keeps_numbers (problem : Problem α) (settings : Settings α) (initial : List α)
    (nonempty : 0 < problem.parameterCount) :
    (∀ proposals head, Visits problem settings initial proposals head →
      (head.stop? settings = none →
        (∀ i, isNaN (head.linearization.residuals.get i) = false) ∧
          ∀ i j, isNaN (head.linearization.jacobian.entry i j) = false) ∧
      ∀ step residuals, head.Keeps settings step residuals →
        ∀ i, isNaN (residuals.get i) = false) ∧
    ∀ outcome, minimize problem settings initial = .ok outcome →
      ((∀ i, isNaN (outcome.residuals.get i) = false) ∧ isNaN outcome.cost = false) ∨
        outcome.termination = .stepTolerance ∨
        (outcome.termination = .nonFiniteGradient ∧ outcome.iterations = 0 ∧
          outcome.params.toList = initial) := by
  refine ⟨fun proposals head visits => ⟨fun going => ?_, fun step residuals keeps => ?_⟩,
    fun outcome ended => ?_⟩
  · exact Head.numbers_of_gradientNorm nonempty (Head.stop?_eq_none.mp going).1
  · exact Head.numbers_of_gain (Head.keeps_iff.mp keeps).2
  · obtain ⟨proposals, last, visits, left⟩ := minimize_ok ended
    by_cases short : outcome.termination = .stepTolerance
    · exact .inr (.inl short)
    · have same := left.eq_outcome short
      rcases visits.numbers nonempty with numbers | ⟨found, iterations, params⟩
      · rw [same]
        exact .inl ⟨numbers, (number_dot_self numbers).2⟩
      · rw [visits.minimize_eq, Head.run_stopped found] at ended
        obtain rfl := Except.ok.inj ended
        exact .inr (.inr ⟨rfl, iterations, params⟩)

/-- With machine numbers a step from four to below zero makes the square root not-a-number and is
taken back. -/
theorem minimize_keeps_numbers_root :
    let root : Problem Float :=
      { parameterCount := 1
        residualCount := 1
        residuals := fun params => .ok #v[Scalar.sqrt params[0]]
        jacobian := fun params => .ok #v[#v[0.5 / Scalar.sqrt params[0]]] }
    ∃ outcome, minimize root ⟨1, 0.0, 0.0, 0.001⟩ [4.0] = .ok outcome ∧
      outcome.termination = .maxIterations ∧ outcome.iterations = 1 ∧
      (∀ i, isNaN (outcome.residuals.get i) = false) ∧ isNaN outcome.cost = false := by
  intro root
  have found : (minimize root ⟨1, 0.0, 0.0, 0.001⟩ [4.0]).toOption.map
      (fun outcome => (outcome.termination, outcome.iterations)) = some (.maxIterations, 1) := by
    decide +kernel
  obtain ⟨outcome, ended, same⟩ := Except.ok_of_toOption found
  obtain ⟨reason, iterations⟩ := Prod.mk.inj same
  refine ⟨outcome, ended, reason, iterations, ?_⟩
  have kept := (minimize_keeps_numbers root ⟨1, 0.0, 0.0, 0.001⟩ [4.0] (by decide)).2
  rcases kept outcome ended with numbers | impossible | ⟨impossible, -⟩
  · exact numbers
  · rw [reason] at impossible
    cases impossible
  · rw [reason] at impossible
    cases impossible

end LeastSquares
