import LeastSquares.Proofs.Solver.Solvability

namespace LeastSquares

open Matrix

variable {settings : Settings ℝ}

theorem Head.Solves.actual_eq {problem : Problem ℝ} {head : Head problem}
    {step : Vector ℝ problem.parameterCount} {residuals : Vector ℝ problem.residualCount}
    (solved : head.Solves step)
    (exactly : residuals.get =
      head.linearization.residuals.get + head.linearization.jacobian.toMatrix *ᵥ step.get) :
    head.linearization.cost - Problem.halfSquare residuals =
      predictedReduction step head.linearization.gradient head.search.damping := by
  let change := head.linearization.jacobian.toMatrix *ᵥ step.get
  have along (v : Fin problem.residualCount → ℝ) :
      step.get ⬝ᵥ (head.linearization.jacobian.toMatrixᵀ *ᵥ v) = change ⬝ᵥ v := by
    rw [dotProduct_mulVec, vecMul_transpose]
  have gradient : head.linearization.gradient.get =
      head.linearization.jacobian.toMatrixᵀ *ᵥ head.linearization.residuals.get := by
    rw [head.linearization.gradient_eq, DenseMatrix.transposeApply_eq_mulVec]
  have balance : change ⬝ᵥ change + head.search.damping * (step.get ⬝ᵥ step.get) =
      -(change ⬝ᵥ head.linearization.residuals.get) := by
    have normal := congrArg (step.get ⬝ᵥ ·) solved.normal
    rwa [gradient, dotProduct_add, dotProduct_neg, along, along, dotProduct_smul, smul_eq_mul]
      at normal
  rw [solved.predicted_eq, Linearization.cost, Problem.halfSquare, Problem.halfSquare,
    dot_eq_dotProduct, dot_eq_dotProduct, exactly, Nat.cast_ofNat]
  simp only [add_dotProduct, dotProduct_add, dotProduct_comm head.linearization.residuals.get]
  linear_combination -balance

theorem shrinkFactor_one : shrinkFactor (1 : ℝ) = 1 / 3 := by
  unfold shrinkFactor
  rw [larger_real]
  norm_num

variable {m n : Nat} {a : DenseMatrix ℝ m n} {b : Vector ℝ m}

theorem Linearization.residuals_exact {linearization : Linearization ℝ m n}
    {params moved step : Vector ℝ n} {residuals : Vector ℝ m}
    (linearized : Linearization.of (Problem.linear a b) params = .ok linearization)
    (reached : moved.get = params.get + step.get)
    (evaluated : (Problem.linear a b).residuals moved = .ok residuals) :
    residuals.get = linearization.residuals.get + linearization.jacobian.toMatrix *ᵥ step.get := by
  obtain ⟨here, jacobian⟩ := Linearization.of_linear linearized
  rw [Problem.linear_residuals evaluated, here, jacobian, reached, mulVec_add, neg_mulVec,
    ← sub_eq_add_neg, sub_sub]

section Kept

variable {head : Head (Problem.linear a b)}
  {step : Vector ℝ (Problem.linear a b).parameterCount}
  {residuals : Vector ℝ (Problem.linear a b).residualCount}

theorem Head.Solves.linear_actual (solved : head.Solves step) (fresh : head.Fresh)
    (evaluated : (Problem.linear a b).residuals (head.proposed step).params = .ok residuals) :
    head.linearization.cost - Problem.halfSquare residuals =
      predictedReduction step head.linearization.gradient head.search.damping :=
  solved.actual_eq <|
    Linearization.residuals_exact fresh (head.search.tick.params_propose step) evaluated

theorem Head.Solves.linear_gain (solved : head.Solves step) (fresh : head.Fresh)
    (evaluated : (Problem.linear a b).residuals (head.proposed step).params = .ok residuals)
    (damped : 0 < head.search.damping) (slope : ∃ i, head.linearization.gradient.get i ≠ 0) :
    head.gain step residuals = 1 ∧ Problem.halfSquare residuals < head.linearization.cost := by
  obtain ⟨i, steep⟩ := slope
  have predicted := solved.predicted_pos damped steep
  have actual := solved.linear_actual fresh evaluated
  constructor
  · rw [Head.gain_eq, actual, div_self predicted.ne']
  · rw [← actual] at predicted
    exact sub_pos.mp predicted

theorem Search.accept_one {k : Nat} (search : Search ℝ k) :
    (search.accept 1).damping = search.damping / 3 ∧ (search.accept 1).growth = 2 := by
  constructor
  · change search.damping * shrinkFactor 1 = search.damping / 3
    rw [shrinkFactor_one, mul_one_div]
  · exact Nat.cast_ofNat

theorem Round.linear {next : Head (Problem.linear a b)}
    {proposal : Proposal ℝ (Problem.linear a b).parameterCount}
    (round : Round settings head proposal next) (fresh : head.Fresh)
    (damped : 0 < head.search.damping) (tolerance : 0 < settings.gradientTolerance) :
    proposal.kept = true ∧ next.search.damping = head.search.damping / 3 ∧
      next.search.growth = 2 := by
  have slope := Head.slope_of_going tolerance round.going
  obtain ⟨-, solved, residuals, evaluated, ⟨kept, -, _, -, rfl⟩ | ⟨-, lost, -⟩⟩ := round.inversion
  · rw [(solved.linear_gain fresh evaluated damped slope).1]
    exact ⟨kept, Search.accept_one _⟩
  · rw [(solved.linear_gain fresh evaluated damped slope).1, Nat.cast_zero] at lost
    exact absurd one_pos lost

theorem Path.linear {head last : Head (Problem.linear a b)}
    {proposals : List (Proposal ℝ (Problem.linear a b).parameterCount)}
    (path : Path settings head proposals last) (fresh : head.Fresh)
    (damped : head.stop? settings = none → 0 < head.search.damping)
    (tolerance : 0 < settings.gradientTolerance) (growth : head.search.growth = 2) :
    (∀ proposal ∈ proposals, proposal.kept = true) ∧
      last.search.damping = head.search.damping / 3 ^ proposals.length ∧
      last.search.growth = 2 := by
  induction path with
  | here head =>
      refine ⟨List.forall_mem_nil _, ?_, growth⟩
      rw [List.length_nil, pow_zero, div_one]
  | next round rest ih =>
      -- Positive damping is known only where the run goes on. From here on a kept step hands it on.
      have positive := damped round.going
      obtain ⟨kept, damping, growth⟩ := round.linear fresh positive tolerance
      have nextDamped := div_pos positive three_pos
      rw [← damping] at nextDamped
      obtain ⟨others, final, growth⟩ := ih (fresh.round round) (fun _ => nextDamped) growth
      refine ⟨List.forall_mem_cons.mpr ⟨kept, others⟩, ?_, growth⟩
      rw [final, damping, List.length_cons, pow_succ', div_div]

theorem Visits.linear {initial : List ℝ} {head : Head (Problem.linear a b)}
    {proposals : List (Proposal ℝ (Problem.linear a b).parameterCount)}
    (visits : Visits (Problem.linear a b) settings initial proposals head)
    (scale : 0 < settings.initialDampingScale) (tolerance : 0 < settings.gradientTolerance) :
    (∀ proposal ∈ proposals, proposal.kept = true) ∧ head.search.growth = 2 ∧
      ∃ start linearization, start.toList = initial ∧
        Linearization.of (Problem.linear a b) start = .ok linearization ∧
        head.search.damping =
          initialDamping linearization.hessian settings.initialDampingScale /
            3 ^ proposals.length := by
  obtain ⟨start, first, spelt, found, path, -⟩ := visits
  have atStart : Visits (Problem.linear a b) settings initial [] first :=
    ⟨start, first, spelt, found, .here first, Nat.zero_le _⟩
  have search := Head.initial_search found
  have fresh := atStart.fresh
  have growth : first.search.growth = 2 := by
    rw [search]
    exact Nat.cast_ofNat
  obtain ⟨kept, damping, growth⟩ :=
    path.linear fresh (atStart.damping_pos scale tolerance) tolerance growth
  refine ⟨kept, growth, start, first.linearization, spelt, ?_, ?_⟩
  · rwa [Head.Fresh, (Head.initial_eq_ok found).1] at fresh
  · rw [damping, search]
    rfl

end Kept

/-- On a linear problem every prediction is exact. So no step is taken back, the damping after some
kept steps is the initial one divided by as many threes, and each step lowers the cost. -/
theorem minimize_linear (a : DenseMatrix ℝ m n) (b : Vector ℝ m) (settings : Settings ℝ)
    (initial : List ℝ) (scale : 0 < settings.initialDampingScale)
    (tolerance : 0 < settings.gradientTolerance) :
    (∀ params, ∃ residuals jacobian,
      (Problem.linear a b).residuals params = .ok residuals ∧
        residuals.get = b.get - a.toMatrix *ᵥ params.get ∧
        (Problem.linear a b).jacobian params = .ok jacobian ∧ jacobian.toMatrix = -a.toMatrix) ∧
    ∀ proposals head, Visits (Problem.linear a b) settings initial proposals head →
      minimize (Problem.linear a b) settings initial =
        head.run settings (settings.maxIterations - proposals.length) ∧
      (∀ proposal ∈ proposals, proposal.kept = true) ∧ head.search.growth = 2 ∧
      (∃ start linearization, start.toList = initial ∧
        Linearization.of (Problem.linear a b) start = .ok linearization ∧
        head.search.damping =
          initialDamping linearization.hessian settings.initialDampingScale /
            3 ^ proposals.length) ∧
      (head.stop? settings = none →
        (∃ i, head.linearization.gradient.get i ≠ 0) ∧
        ∃ step residuals, head.Solves step ∧
          (Problem.linear a b).residuals (head.proposed step).params = .ok residuals ∧
          (head.linearization.sumOfSquares - dot residuals residuals) / 2 =
            predictedReduction step head.linearization.gradient head.search.damping ∧
          head.gain step residuals = 1 ∧
          Problem.halfSquare residuals < head.linearization.cost ∧
          ((head.proposed step).stepLength ≤ settings.stepTolerance →
            ∃ outcome, head.attempt settings = .ok (.finished outcome) ∧
              outcome.termination = .stepTolerance) ∧
          (¬ (head.proposed step).stepLength ≤ settings.stepTolerance →
            ∃ next, head.attempt settings = .ok (.accepted next) ∧
              next.search.damping = head.search.damping / 3 ∧ next.search.growth = 2 ∧
              next.linearization.cost < head.linearization.cost)) := by
  constructor
  · intro params
    exact ⟨_, _, rfl, Problem.linear_residuals rfl, rfl, a.toMatrix_neg⟩
  · intro proposals head visits
    obtain ⟨kept, growth, damping⟩ := visits.linear scale tolerance
    refine ⟨visits.minimize_eq, kept, growth, damping, fun going => ?_⟩
    have slope := Head.slope_of_going tolerance going
    have damped := visits.damping_pos scale tolerance going
    obtain ⟨step, solved⟩ := visits.solvable scale tolerance going
    obtain ⟨residuals, evaluated⟩ :=
      (Problem.Total.linear a b).residuals_ok (head.proposed step).params
    obtain ⟨gain, lower⟩ := solved.linear_gain visits.fresh evaluated damped slope
    refine ⟨slope, step, residuals, solved, evaluated, ?_, gain, lower, fun short => ?_,
      fun long => ?_⟩
    · rw [← solved.linear_actual visits.fresh evaluated, Linearization.cost, Problem.halfSquare,
        Problem.halfSquare, Nat.cast_ofNat, ← sub_div]
      rfl
    · rw [solved.attempt_eq evaluated, if_pos short]
      exact ⟨_, rfl, rfl⟩
    · have gained : ((0 : Nat) : ℝ) < head.gain step residuals := by
        rw [gain, Nat.cast_zero]
        exact one_pos
      obtain ⟨next, round, same⟩ :=
        Head.Proposes.kept ⟨going, solved, evaluated, long⟩ gained rfl
      obtain ⟨-, damping, growth⟩ := round.linear visits.fresh damped tolerance
      have cost : next.linearization.cost < head.linearization.cost := by
        rwa [Linearization.cost, same]
      cases round with
      | accepted _ _ tried => exact ⟨next, tried, damping, growth, cost⟩

theorem minimize_linear_underdetermined :
    ∃ head step residuals, Visits underdetermined .standard [0, 0] [] head ∧
      head.linearization.hessian.toMatrix.det = 0 ∧ head.Solves step ∧
      underdetermined.residuals (head.proposed step).params = .ok residuals ∧
      head.gain step residuals = 1 ∧
      Problem.halfSquare residuals < head.linearization.cost := by
  obtain ⟨head, visits, steep, singular⟩ := underdetermined_visits .standard
  have going : head.stop? .standard = none :=
    Head.going_of_steep (standard_tolerances.2.1.trans_eq (steep (0 : Fin 2)).symm)
  obtain ⟨-, linear⟩ := minimize_linear (.replicate 1 (.replicate 2 1)) (.replicate 1 1)
    .standard [0, 0] standard_scale_pos standard_tolerances.1
  obtain ⟨-, -, -, -, trial⟩ := linear [] head visits
  obtain ⟨-, step, residuals, solved, evaluated, -, gain, lower, -⟩ := trial going
  exact ⟨head, step, residuals, visits, singular, solved, evaluated, gain, lower⟩

end LeastSquares
