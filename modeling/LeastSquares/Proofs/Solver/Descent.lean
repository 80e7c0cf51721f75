import LeastSquares.Proofs.Solver.Decisions
import LeastSquares.Proofs.Solver.PositiveDamping
import LeastSquares.Proofs.Solver.Truncation

namespace LeastSquares

open Matrix

variable {problem : Problem ℝ} {settings : Settings ℝ}

/-! ## Costs along a path -/

theorem Head.gain_pos_iff_of_predicted (head : Head problem)
    {step : Vector ℝ problem.parameterCount} (residuals : Vector ℝ problem.residualCount)
    (predicted : 0 < predictedReduction step head.linearization.gradient head.search.damping) :
    ((0 : Nat) : ℝ) < head.gain step residuals ↔
      Problem.halfSquare residuals < head.linearization.cost := by
  rw [head.gain_pos_iff]
  constructor
  · rintro (⟨lower, -⟩ | ⟨-, negative⟩)
    · exact lower
    · exact absurd predicted negative.not_gt
  · exact fun lower => .inl ⟨lower, predicted⟩

theorem Round.cost_le {head next : Head problem} {proposal : Proposal ℝ problem.parameterCount}
    (round : Round settings head proposal next) (damped : 0 ≤ head.search.damping) :
    next.linearization.cost ≤ head.linearization.cost := by
  obtain ⟨-, solved, residuals, -, ⟨-, gained, _, linearized, rfl⟩ | ⟨-, -, rfl⟩⟩ := round.inversion
  · rw [Linearization.cost, Linearization.withResiduals_residuals linearized]
    rcases (head.gain_pos_iff _ _).mp gained with ⟨lower, -⟩ | ⟨-, negative⟩
    · exact lower.le
    · exact absurd (solved.predicted_nonneg damped) (not_le.mpr negative)
  · exact le_refl _

theorem Path.cost_le {head last : Head problem}
    {proposals : List (Proposal ℝ problem.parameterCount)}
    (path : Path settings head proposals last) (damped : 0 ≤ head.search.damping)
    (growing : 0 < head.search.growth) : last.linearization.cost ≤ head.linearization.cost := by
  induction path with
  | here head => exact le_refl _
  | next round rest ih =>
      obtain ⟨factor, positive, damping, growing⟩ := round.damping_eq growing
      have nextDamped := mul_nonneg damped positive.le
      rw [← damping] at nextDamped
      exact (ih nextDamped growing).trans (round.cost_le damped)

/-! ## A first step on one equation -/

noncomputable def vanishing : Problem ℝ :=
  .linear #v[#v[1]] #v[0]

theorem vanishing_residuals (a : ℝ) : vanishing.residuals #v[a] = .ok #v[-a] := by
  simp [vanishing, Problem.linear]

theorem vanishing_jacobian (params : Vector ℝ 1) : vanishing.jacobian params = .ok #v[#v[-1]] := by
  simp [vanishing, Problem.linear, DenseMatrix.neg]

noncomputable def vanishingAtOne : Linearization ℝ 1 1 where
  residuals := #v[-1]
  jacobian := #v[#v[-1]]

theorem vanishing_linearized : Linearization.of vanishing #v[1] = .ok vanishingAtOne :=
  Linearization.of_eq_ok.mpr
    ⟨_, vanishing_residuals 1, Except.map_eq_ok.mpr ⟨_, vanishing_jacobian _, rfl⟩⟩

theorem vanishingAtOne_gradient : vanishingAtOne.gradient = #v[1] := by
  rw [eq_single vanishingAtOne.gradient, Linearization.gradient_apply]
  simp [dotProduct, vanishingAtOne, DenseMatrix.entry, get_eq_getElem]

theorem vanishingAtOne_hessian : vanishingAtOne.hessian.entry 0 0 = 1 := by
  rw [Linearization.hessian_entry_self]
  simp [dotProduct, vanishingAtOne, DenseMatrix.entry, get_eq_getElem]

noncomputable def vanishingHead (scale : ℝ) : Head vanishing where
  search := .start #v[1] scale
  linearization := vanishingAtOne

theorem vanishing_visits {settings : Settings ℝ} :
    Visits vanishing settings [1] [] (vanishingHead settings.initialDampingScale) := by
  have damping : initialDamping vanishingAtOne.hessian settings.initialDampingScale =
      settings.initialDampingScale := by
    rw [initialDamping, eq_single vanishingAtOne.hessian.diagonal, DenseMatrix.diagonal,
      Vector.get_ofFn, vanishingAtOne_hessian]
    exact mul_one _
  refine ⟨#v[1], _, rfl, ?_, .here _, Nat.zero_le _⟩
  refine Except.map_eq_ok.mpr ⟨_, vanishing_linearized, ?_⟩
  exact congrArg vanishingHead damping

theorem vanishing_proposes {settings : Settings ℝ} {h : ℝ}
    (normal : (1 + settings.initialDampingScale) * h = -1)
    (tolerance : settings.gradientTolerance ≤ 1) (long : settings.stepTolerance < |h|) :
    (vanishingHead settings.initialDampingScale).Proposes settings #v[h] #v[-(1 + h)] where
  going := by
    have steep : settings.gradientTolerance ≤ |vanishingAtOne.gradient.get 0| := by
      rw [vanishingAtOne_gradient]
      exact tolerance.trans_eq abs_one.symm
    exact Head.going_of_steep steep
  solved := by
    have nonzero : 1 + settings.initialDampingScale ≠ 0 := by
      intro zero
      rw [zero, zero_mul] at normal
      exact zero_ne_one (neg_eq_zero.mp normal.symm).symm
    have damped : (vanishingAtOne.hessian.addDiagonal settings.initialDampingScale).entry 0 0 =
        1 + settings.initialDampingScale := by
      rw [DenseMatrix.entry_addDiagonal, if_pos rfl, vanishingAtOne_hessian]
    have right : (vanishingAtOne.gradient.map (- ·)).get 0 = -1 := by
      rw [Vector.get_map, vanishingAtOne_gradient]
      rfl
    have solution : -1 / (1 + settings.initialDampingScale) = h :=
      (div_eq_iff nonzero).mpr (normal.symm.trans (mul_comm _ _))
    have step : dampedStep vanishingAtOne.hessian vanishingAtOne.gradient
        settings.initialDampingScale 1 = .ok #v[h] := by
      rw [dampedStep, DenseMatrix.solveSymmetric?_single (by rwa [damped]), damped, right, solution]
    exact step
  evaluated := by
    have moved : ((vanishingHead settings.initialDampingScale).proposed #v[h]).params = #v[1 + h] :=
      (eq_single _).trans (congrArg (#v[·]) (get_zipWith _ _ _ _))
    rw [moved]
    exact vanishing_residuals _
  long := by
    have square : (#v[h] : Vector ℝ 1).get ⬝ᵥ (#v[h] : Vector ℝ 1).get = h * h :=
      Fin.sum_univ_one _
    have length : ((vanishingHead settings.initialDampingScale).proposed #v[h]).stepLength = |h| :=
      (Search.stepLength_propose _ _).trans
        ((congrArg Real.sqrt square).trans (Real.sqrt_mul_self_eq_abs h))
    rw [length]
    exact not_le.mpr long

theorem halfSquare_single (a : ℝ) : Problem.halfSquare #v[a] = a * a / 2 := by
  rw [halfSquare_eq]
  exact congrArg (· / 2) (Fin.sum_univ_one _)

theorem vanishing_predicted {scale h : ℝ} (normal : (1 + scale) * h = -1) :
    predictedReduction #v[h] vanishingAtOne.gradient scale = (1 - (1 + h) * (1 + h)) / 2 := by
  rw [predictedReduction_eq, vanishingAtOne_gradient]
  have product : (#v[h] : Vector ℝ 1).get ⬝ᵥ
      (scale • (#v[h] : Vector ℝ 1).get - (#v[1] : Vector ℝ 1).get) = h * (scale * h - 1) :=
    Fin.sum_univ_one _
  rw [product]
  linear_combination (h / 2) * normal

theorem vanishing_gain {scale h : ℝ} (normal : (1 + scale) * h = -1)
    (moves : (1 + h) * (1 + h) ≠ 1) :
    (vanishingHead scale).gain #v[h] #v[-(1 + h)] = 1 := by
  have actual : Problem.halfSquare #v[-1] - Problem.halfSquare #v[-(1 + h)] =
      (1 - (1 + h) * (1 + h)) / 2 := by
    rw [halfSquare_single, halfSquare_single]
    ring
  have quotient := (vanishingHead scale).gain_eq #v[h] #v[-(1 + h)]
  have equal := congrArg₂ (· / ·) actual (vanishing_predicted normal)
  exact quotient.trans <| equal.trans <|
    div_self (div_ne_zero (sub_ne_zero.mpr moves.symm) two_ne_zero)

section FirstStep

variable {settings : Settings ℝ} {h : ℝ}
  (normal : (1 + settings.initialDampingScale) * h = -1)
  (tolerance : settings.gradientTolerance ≤ 1) (long : settings.stepTolerance < |h|)
  (moves : (1 + h) * (1 + h) ≠ 1)

include normal tolerance long moves

theorem vanishing_keeps :
    ∃ next, Round settings (vanishingHead settings.initialDampingScale)
        ⟨#v[1], #v[h], true⟩ next ∧
      next.linearization.cost = (1 + h) * (1 + h) / 2 := by
  have gained : ((0 : Nat) : ℝ) <
      (vanishingHead settings.initialDampingScale).gain #v[h] #v[-(1 + h)] := by
    rw [vanishing_gain normal moves, Nat.cast_zero]
    exact one_pos
  obtain ⟨next, round, residuals⟩ :=
    (vanishing_proposes normal tolerance long).kept gained (vanishing_jacobian _)
  have cost := congrArg Problem.halfSquare residuals
  refine ⟨next, round, ?_⟩
  rw [← neg_mul_neg]
  exact cost.trans (halfSquare_single _)

theorem vanishing_minimize (once : settings.maxIterations = 1) :
    ∃ outcome, minimize vanishing settings [1] = .ok outcome ∧
      outcome.termination ≠ .stepTolerance ∧ outcome.cost = (1 + h) * (1 + h) / 2 := by
  obtain ⟨next, round, cost⟩ := vanishing_keeps normal tolerance long moves
  obtain ⟨reason, other, ended⟩ := next.run_zero settings
  refine ⟨next.outcome reason, ?_, other, cost⟩
  rw [vanishing_visits.minimize_eq, once]
  exact (round.run_eq 0).trans ended

end FirstStep

/-! ## Visited heads -/

section Visited

variable {initial : List ℝ} {proposals : List (Proposal ℝ problem.parameterCount)}
  {head : Head problem}

theorem Visits.damped (visits : Visits problem settings initial proposals head)
    (scale : 0 ≤ settings.initialDampingScale) :
    0 ≤ head.search.damping ∧ 0 < head.search.growth := by
  obtain ⟨size, nonneg, damping, growing, -⟩ := visits.damping_eq
  rw [damping]
  exact ⟨mul_nonneg scale nonneg, growing⟩

theorem Visits.cost_le (visits : Visits problem settings initial proposals head)
    (scale : 0 ≤ settings.initialDampingScale) :
    ∃ start cost, start.toList = initial ∧ problem.cost start = .ok cost ∧
      head.linearization.cost ≤ cost := by
  obtain ⟨start, first, spelt, found, path, -⟩ := visits
  have atStart : Visits problem settings initial [] first :=
    ⟨start, first, spelt, found, .here first, Nat.zero_le _⟩
  have evaluated := atStart.fresh.residuals_eq
  rw [(Head.initial_eq_ok found).1] at evaluated
  obtain ⟨damped, growing⟩ := atStart.damped scale
  exact ⟨start, _, spelt, Problem.cost_eq_ok evaluated, path.cost_le damped growing⟩

/-- A step is kept because both reductions are positive, or because both are negative, which takes a
negative scale. -/
theorem kept_step_reductions (problem : Problem ℝ) (settings : Settings ℝ) (initial : List ℝ)
    (proposals : List (Proposal ℝ problem.parameterCount)) (head : Head problem)
    (visits : Visits problem settings initial proposals head)
    (step : Vector ℝ problem.parameterCount) (residuals : Vector ℝ problem.residualCount)
    (keeps : head.Keeps settings step residuals) :
    0 < predictedReduction step head.linearization.gradient head.search.damping ∧
        Problem.halfSquare residuals < head.linearization.cost ∨
      settings.initialDampingScale < 0 ∧
        predictedReduction step head.linearization.gradient head.search.damping < 0 ∧
        head.linearization.cost < Problem.halfSquare residuals := by
  obtain ⟨proposes, gained⟩ := Head.keeps_iff.mp keeps
  rcases (head.gain_pos_iff _ _).mp gained with ⟨lower, positive⟩ | ⟨higher, negative⟩
  · exact .inl ⟨positive, lower⟩
  · refine .inr ⟨?_, negative, higher⟩
    by_contra scale
    have damped := (visits.damped (not_lt.mp scale)).1
    exact absurd (proposes.solved.predicted_nonneg damped) (not_le.mpr negative)

end Visited

theorem kept_step_reductions_vanishing :
    let settings : Settings ℝ := { Settings.standard with initialDampingScale := 1 }
    Visits vanishing settings [1] [] (vanishingHead 1) ∧
      (vanishingHead 1).Keeps settings #v[-1 / 2] #v[-(1 + -1 / 2)] ∧
      0 < predictedReduction #v[-1 / 2] vanishingAtOne.gradient 1 ∧
      Problem.halfSquare #v[-(1 + -1 / 2)] < vanishingAtOne.cost := by
  intro settings
  obtain ⟨-, tolerance, long⟩ := standard_tolerances
  have normal : (1 + settings.initialDampingScale) * (-1 / 2) = -1 := by
    norm_num [settings]
  have longer : settings.stepTolerance < |-1 / 2| := by
    norm_num
    exact long
  have proposes := vanishing_proposes normal tolerance longer
  have gained : ((0 : Nat) : ℝ) < (vanishingHead 1).gain #v[-1 / 2] #v[-(1 + -1 / 2)] := by
    rw [vanishing_gain normal (by norm_num), Nat.cast_zero]
    exact one_pos
  have keeps : (vanishingHead 1).Keeps settings #v[-1 / 2] #v[-(1 + -1 / 2)] :=
    Head.keeps_iff.mpr ⟨proposes, gained⟩
  refine ⟨vanishing_visits, keeps, ?_⟩
  rcases kept_step_reductions vanishing settings [1] [] _ vanishing_visits _ _ keeps with
    lowered | ⟨scale, -⟩
  · exact lowered
  · exact absurd scale (not_lt.mpr zero_le_one)

/-- A negative scale turns the first step uphill, and the step is kept. -/
theorem kept_step_raises_cost :
    let settings : Settings ℝ :=
      { Settings.standard with initialDampingScale := -2, maxIterations := 1 }
    ∃ next, Visits vanishing settings [1] [] (vanishingHead (-2)) ∧
      Round settings (vanishingHead (-2)) ⟨#v[1], #v[1], true⟩ next ∧
      predictedReduction #v[1] vanishingAtOne.gradient (-2) = -3 / 2 ∧
      vanishingAtOne.cost = 1 / 2 ∧ next.linearization.cost = 2 ∧
      ∃ outcome, minimize vanishing settings [1] = .ok outcome ∧ outcome.cost = 2 := by
  intro settings
  obtain ⟨-, tolerance, long⟩ := standard_tolerances
  have normal : (1 + settings.initialDampingScale) * 1 = -1 := by
    norm_num [settings]
  have longer : settings.stepTolerance < |1| := by
    rw [abs_one]
    exact long.trans (by norm_num)
  obtain ⟨next, round, cost⟩ := vanishing_keeps normal tolerance longer (by norm_num)
  obtain ⟨outcome, ended, -, final⟩ := vanishing_minimize normal tolerance longer (by norm_num) rfl
  refine ⟨next, vanishing_visits, round, ?_, ?_, ?_, outcome, ended, ?_⟩
  · rw [vanishing_predicted normal]
    norm_num
  · exact (halfSquare_single (-1)).trans (by norm_num)
  · rw [cost]
    norm_num
  · rw [final]
    norm_num

/-- Where the scale and the tolerance of the gradient are positive, a step solved for is kept exactly
if it lowers the cost, and a run that may go on for longer ends no higher. -/
theorem minimize_descends (problem : Problem ℝ) (settings : Settings ℝ) (initial : List ℝ)
    (scale : 0 < settings.initialDampingScale) (tolerance : 0 < settings.gradientTolerance) :
    (∀ proposals head, Visits problem settings initial proposals head →
      minimize problem settings initial =
        head.run settings (settings.maxIterations - proposals.length) ∧
      (head.stop? settings = none →
        (∃ i, head.linearization.gradient.get i ≠ 0) ∧ 0 < head.search.damping ∧
        ∀ step, head.Solves step →
          0 < predictedReduction step head.linearization.gradient head.search.damping ∧
          ∀ residuals, problem.residuals (head.proposed step).params = .ok residuals →
            (((0 : Nat) : ℝ) < head.gain step residuals ↔
              Problem.halfSquare residuals < head.linearization.cost) ∧
            (¬ (head.proposed step).stepLength ≤ settings.stepTolerance →
              head.attempt settings =
                if Problem.halfSquare residuals < head.linearization.cost then
                  (Linearization.withResiduals problem (head.proposed step).params residuals).map
                    fun linearization =>
                      .accepted
                        { search := (head.proposed step).accept (head.gain step residuals)
                          linearization }
                else .ok (.rejected { head with search := (head.proposed step).reject })))) ∧
    ∀ fewer more, fewer ≤ more → ∀ first second,
      minimize problem { settings with maxIterations := fewer } initial = .ok first →
      minimize problem { settings with maxIterations := more } initial = .ok second →
      first.termination ≠ .stepTolerance → second.termination ≠ .stepTolerance →
        second.cost ≤ first.cost ∧
          ∃ start cost, start.toList = initial ∧ problem.cost start = .ok cost ∧
            first.cost ≤ cost := by
  constructor
  · intro proposals head visits
    refine ⟨visits.minimize_eq, fun going => ?_⟩
    have slope := Head.slope_of_going tolerance going
    have damped := visits.damping_pos scale tolerance going
    refine ⟨slope, damped, fun step solved => ?_⟩
    obtain ⟨i, steep⟩ := slope
    have predicted := solved.predicted_pos damped steep
    refine ⟨predicted, fun residuals evaluated => ?_⟩
    have truthful := head.gain_pos_iff_of_predicted residuals predicted
    refine ⟨truthful, fun long => ?_⟩
    have proposes : head.Proposes settings step residuals := ⟨going, solved, evaluated, long⟩
    rw [proposes.attempt_eq]
    simp only [truthful]
  · intro fewer more fits first second endedFirst endedSecond longFirst longSecond
    obtain ⟨proposals, last, visits, left⟩ := minimize_ok endedFirst
    have same := left.eq_outcome longFirst
    obtain ⟨damped, growing⟩ := visits.damped scale.le
    constructor
    · -- The longer run comes to the head where the shorter one ended and goes on from there.
      have continued := (visits.withLimit fits).minimize_eq
      rw [endedSecond] at continued
      obtain ⟨others, final, path, -, leftSecond⟩ := Head.run_ok continued.symm
      rw [same, leftSecond.eq_outcome longSecond]
      exact path.cost_le damped growing
    · rw [same]
      exact visits.cost_le scale.le

theorem minimize_descends_vanishing :
    let settings : Settings ℝ := { Settings.standard with initialDampingScale := 1 }
    0 < predictedReduction #v[-1 / 2] vanishingAtOne.gradient 1 ∧
      ∃ first second,
        minimize vanishing { settings with maxIterations := 0 } [1] = .ok first ∧
        minimize vanishing { settings with maxIterations := 1 } [1] = .ok second ∧
        second.cost ≤ first.cost ∧
        ∃ start cost, start.toList = [1] ∧ vanishing.cost start = .ok cost ∧ first.cost ≤ cost := by
  intro settings
  obtain ⟨positive, tolerance, long⟩ := standard_tolerances
  have normal : (1 + settings.initialDampingScale) * (-1 / 2) = -1 := by
    norm_num [settings]
  have longer : settings.stepTolerance < |-1 / 2| := by
    norm_num
    exact long
  have proposes := vanishing_proposes normal tolerance longer
  obtain ⟨descends, capped⟩ := minimize_descends vanishing settings [1] one_pos positive
  obtain ⟨reason, other, stopped⟩ :=
    (vanishingHead 1).run_zero { settings with maxIterations := 0 }
  have endedFirst : minimize vanishing { settings with maxIterations := 0 } [1] =
      .ok ((vanishingHead 1).outcome reason) := vanishing_visits.minimize_eq.trans stopped
  obtain ⟨second, endedSecond, otherToo, -⟩ :
      ∃ outcome, minimize vanishing { settings with maxIterations := 1 } [1] = .ok outcome ∧
        outcome.termination ≠ .stepTolerance ∧ outcome.cost = _ :=
    vanishing_minimize normal tolerance longer (by norm_num) rfl
  refine ⟨?_, _, second, endedFirst, endedSecond, ?_⟩
  · obtain ⟨-, -, falls⟩ := (descends [] _ vanishing_visits).2 proposes.going
    exact (falls _ proposes.solved).1
  · exact capped 0 1 zero_le_one _ _ endedFirst endedSecond other otherToo

end LeastSquares
