import LeastSquares.Proofs.Solver.Descent
import LeastSquares.Proofs.Solver.Solvability

/-!
# Rejections in a row

Steps taken back one after another multiply the damping by ever larger powers of two
(`Head.takenBack_schedule`). The more a step is damped the shorter it is, and where the residuals
have the Jacobian as derivative and the gradient is not zero a short enough step lowers the cost
(`eventually_square_lt`). So only finitely many steps are taken back in a row.
-/

namespace LeastSquares

open Matrix Filter Topology

variable {problem : Problem ℝ} {settings : Settings ℝ}

/-! ## The schedule of the damping -/

namespace Head

noncomputable def takeBack (head : Head problem) (step : Vector ℝ problem.parameterCount) :
    Head problem :=
  { head with search := (head.proposed step).reject }

noncomputable def takenBack (head : Head problem) (steps : List (Vector ℝ problem.parameterCount)) :
    Head problem :=
  steps.foldl takeBack head

variable (head : Head problem) (steps : List (Vector ℝ problem.parameterCount))

theorem takenBack_concat (step : Vector ℝ problem.parameterCount) :
    head.takenBack (steps ++ [step]) = (head.takenBack steps).takeBack step :=
  List.foldl_concat _ _ _ _

theorem takenBack_params : (head.takenBack steps).search.params = head.search.params := by
  induction steps generalizing head with
  | nil => rfl
  | cons step steps ih => exact ih (head.takeBack step)

theorem takenBack_linearization : (head.takenBack steps).linearization = head.linearization := by
  induction steps generalizing head with
  | nil => rfl
  | cons step steps ih => exact ih (head.takeBack step)

variable {head} (growth : head.search.growth = 2)

include growth

theorem takenBack_schedule :
    (head.takenBack steps).search.damping =
        head.search.damping * 2 ^ (steps.length * (steps.length + 1) / 2) ∧
      (head.takenBack steps).search.growth = 2 ^ (steps.length + 1) := by
  induction steps using List.reverseRecOn with
  | nil =>
      simp only [takenBack, List.foldl_nil, growth]
      norm_num
  | append_singleton steps step ih =>
      obtain ⟨damping, growth⟩ := ih
      have triangular : (steps.length + 1) * (steps.length + 1 + 1) / 2 =
          steps.length * (steps.length + 1) / 2 + (steps.length + 1) := by
        rw [mul_comm, mul_comm steps.length]
        exact Nat.triangle_succ (steps.length + 1)
      rw [takenBack_concat, List.length_append, List.length_singleton]
      constructor
      · change (head.takenBack steps).search.damping * (head.takenBack steps).search.growth = _
        rw [damping, growth, mul_assoc, ← pow_add, triangular]
      · change (head.takenBack steps).search.growth * ((2 : Nat) : ℝ) = _
        rw [growth, Nat.cast_ofNat, ← pow_succ]

theorem exists_damping_ge (damped : 0 < head.search.damping) (bound : ℝ) :
    ∃ enough, ∀ steps, enough ≤ steps.length → bound ≤ (head.takenBack steps).search.damping := by
  obtain ⟨enough, large⟩ := exists_nat_ge (bound / head.search.damping)
  refine ⟨enough, fun steps many => ?_⟩
  have exponent : steps.length ≤ steps.length * (steps.length + 1) / 2 := by
    rw [Nat.le_div_iff_mul_le two_pos]
    nlinarith [Nat.le_mul_self steps.length]
  have power : (enough : ℝ) ≤ 2 ^ (steps.length * (steps.length + 1) / 2) := by
    exact_mod_cast many.trans (exponent.trans Nat.lt_two_pow_self.le)
  rw [(takenBack_schedule steps growth).1]
  calc bound ≤ head.search.damping * enough := (div_le_iff₀' damped).mp large
    _ ≤ _ := mul_le_mul_of_nonneg_left power damped.le

end Head

/-! ## Short steps -/

section ShortSteps

variable {m n : Nat}

theorem norm_mul_norm_le (v : Fin n → ℝ) : ‖v‖ * ‖v‖ ≤ v ⬝ᵥ v := by
  have squares (i : Fin n) : v i ^ 2 ≤ v ⬝ᵥ v := by
    rw [sq]
    exact Finset.single_le_sum (fun j _ => mul_self_nonneg (v j)) (Finset.mem_univ i)
  have root : ‖v‖ ≤ Real.sqrt (v ⬝ᵥ v) :=
    (pi_norm_le_iff_of_nonneg (Real.sqrt_nonneg _)).mpr fun i => Real.abs_le_sqrt (squares i)
  calc ‖v‖ * ‖v‖ ≤ Real.sqrt (v ⬝ᵥ v) * Real.sqrt (v ⬝ᵥ v) :=
        mul_self_le_mul_self (norm_nonneg v) root
    _ = v ⬝ᵥ v := Real.mul_self_sqrt (dotProduct_star_self_nonneg v)

theorem neg_dotProduct_le (g v : Fin n → ℝ) : -(g ⬝ᵥ v) ≤ (∑ i, |g i|) * ‖v‖ := by
  rw [← neg_dotProduct, dotProduct, Finset.sum_mul]
  refine Finset.sum_le_sum fun i _ => ?_
  calc (-g) i * v i ≤ |(-g) i * v i| := le_abs_self _
    _ = |g i| * |v i| := by rw [abs_mul, Pi.neg_apply, abs_neg]
    _ ≤ |g i| * ‖v‖ := mul_le_mul_of_nonneg_left (norm_le_pi_norm v i) (abs_nonneg _)

variable {a : Matrix (Fin m) (Fin n) ℝ} {gradient step : Fin n → ℝ} {damping : ℝ}

theorem damping_mul_square_le (normal : aᵀ *ᵥ (a *ᵥ step) + damping • step = -gradient)
    (damped : 0 ≤ damping) : damping * (‖step‖ * ‖step‖) ≤ -(gradient ⬝ᵥ step) := by
  have change : (aᵀ *ᵥ (a *ᵥ step)) ⬝ᵥ step = (a *ᵥ step) ⬝ᵥ (a *ᵥ step) := by
    rw [mulVec_transpose, ← dotProduct_mulVec]
  have nonneg : 0 ≤ (a *ᵥ step) ⬝ᵥ (a *ᵥ step) := dotProduct_star_self_nonneg _
  calc damping * (‖step‖ * ‖step‖) ≤ damping * (step ⬝ᵥ step) :=
        mul_le_mul_of_nonneg_left (norm_mul_norm_le step) damped
    _ ≤ (a *ᵥ step) ⬝ᵥ (a *ᵥ step) + damping * (step ⬝ᵥ step) := le_add_of_nonneg_left nonneg
    _ = -(gradient ⬝ᵥ step) := by
        rw [← neg_dotProduct, ← normal, add_dotProduct, change, smul_dotProduct, smul_eq_mul]

theorem damping_mul_norm_le (normal : aᵀ *ᵥ (a *ᵥ step) + damping • step = -gradient)
    (damped : 0 ≤ damping) : damping * ‖step‖ ≤ ∑ i, |gradient i| := by
  rcases (norm_nonneg step).eq_or_lt with zero | moves
  · rw [← zero, mul_zero]
    exact Finset.sum_nonneg fun i _ => abs_nonneg _
  · refine le_of_mul_le_mul_right ?_ moves
    rw [mul_assoc]
    exact (damping_mul_square_le normal damped).trans (neg_dotProduct_le gradient step)

theorem exists_damping_of_eventually {P : (Fin n → ℝ) → Prop}
    (near : ∀ᶠ step in 𝓝 0, ∀ damping : ℝ, 0 < damping →
      aᵀ *ᵥ (a *ᵥ step) + damping • step = -gradient → P step) :
    ∃ bound : ℝ, ∀ (damping : ℝ) (step : Fin n → ℝ), 0 < damping → bound ≤ damping →
      aᵀ *ᵥ (a *ᵥ step) + damping • step = -gradient → P step := by
  obtain ⟨radius, positive, near⟩ := Metric.eventually_nhds_iff.mp near
  refine ⟨(∑ i, |gradient i| + 1) / radius, fun damping step damped strong normal => ?_⟩
  refine near ?_ damping damped normal
  rw [dist_zero_right]
  refine lt_of_mul_lt_mul_left ?_ damped.le
  calc damping * ‖step‖ ≤ ∑ i, |gradient i| := damping_mul_norm_le normal damped.le
    _ < ∑ i, |gradient i| + 1 := lt_add_one _
    _ ≤ damping * radius := (div_le_iff₀ positive).mp strong

variable {residuals : (Fin n → ℝ) → Fin m → ℝ} {place : Fin n → ℝ}
  (differentiable : HasFDerivAt residuals a.mulVecLin.toContinuousLinearMap place)

include differentiable

theorem isLittleO_halfSquare :
    (fun step => residuals (place + step) ⬝ᵥ residuals (place + step) / 2 -
        residuals place ⬝ᵥ residuals place / 2 - (aᵀ *ᵥ residuals place) ⬝ᵥ step)
      =o[𝓝 0] fun step => step := by
  have entries (k : Fin m) := hasFDerivAt_pi'.mp differentiable k
  have squares := HasFDerivAt.fun_sum fun k (_ : k ∈ Finset.univ) => (entries k).mul (entries k)
  have remainder := hasFDerivAt_iff_isLittleO_nhds_zero.mp (squares.const_mul (1 / 2))
  refine remainder.congr_left fun step => ?_
  have along : (aᵀ *ᵥ residuals place) ⬝ᵥ step =
      1 / 2 * ∑ k, (residuals place k * (a *ᵥ step) k + residuals place k * (a *ᵥ step) k) := by
    rw [mulVec_transpose, ← dotProduct_mulVec, Finset.sum_add_distrib, dotProduct]
    ring
  rw [along, dotProduct, dotProduct]
  simp [div_eq_inv_mul]

/-- Short steps that solve damped normal equations lower the cost where there is a slope. -/
theorem eventually_square_lt (slope : aᵀ *ᵥ residuals place ≠ 0) :
    ∀ᶠ step in 𝓝 0, ∀ damping : ℝ, 0 < damping →
      aᵀ *ᵥ (a *ᵥ step) + damping • step = -(aᵀ *ᵥ residuals place) →
      residuals (place + step) ⬝ᵥ residuals (place + step) / 2 <
        residuals place ⬝ᵥ residuals place / 2 := by
  have steep : 0 < ‖aᵀ *ᵥ residuals place‖ := norm_pos_iff.mpr slope
  have remainder := Asymptotics.isLittleO_iff.mp (isLittleO_halfSquare differentiable)
    (div_pos steep four_pos)
  have curvature : ∀ᶠ step in 𝓝 0, ‖aᵀ *ᵥ (a *ᵥ step)‖ < ‖aᵀ *ᵥ residuals place‖ / 2 := by
    have continuous : Continuous fun step => ‖aᵀ *ᵥ (a *ᵥ step)‖ := by fun_prop
    exact (continuous.tendsto' 0 0 (by simp)).eventually_lt_const (half_pos steep)
  filter_upwards [remainder, curvature] with step remainder curvature damping damped normal
  have long : ‖aᵀ *ᵥ residuals place‖ / 2 < damping * ‖step‖ := by
    have parts := norm_add_le (aᵀ *ᵥ (a *ᵥ step)) (damping • step)
    rw [normal, norm_neg, norm_smul, Real.norm_of_nonneg damped.le] at parts
    linarith
  have downhill := damping_mul_square_le normal damped.le
  have moves : 0 < ‖step‖ := pos_of_mul_pos_right ((half_pos steep).trans long) damped.le
  -- The descent outweighs the remainder, which is half as steep at most.
  have bound := (le_abs_self _).trans remainder
  nlinarith

end ShortSteps

/-! ## Gains of strongly damped steps -/

/-- The residuals are computed near some parameters, and there the matrix is their derivative. -/
def Problem.HasJacobianAt (problem : Problem ℝ) (params : Vector ℝ problem.parameterCount)
    (jacobian : DenseMatrix ℝ problem.residualCount problem.parameterCount) : Prop :=
  ∃ residuals : (Fin problem.parameterCount → ℝ) → Fin problem.residualCount → ℝ,
    (∀ᶠ place in 𝓝 params.get, problem.residuals (.ofFn place) = .ok (.ofFn (residuals place))) ∧
      HasFDerivAt residuals jacobian.toMatrix.mulVecLin.toContinuousLinearMap params.get

namespace Head

variable {head : Head problem}

def Gains (head : Head problem) : Prop :=
  ∃ step residuals, head.Solves step ∧
    problem.residuals (head.proposed step).params = .ok residuals ∧
    ((0 : Nat) : ℝ) < head.gain step residuals

theorem Gains.not_rejected (gains : head.Gains) (next : Head problem) :
    head.attempt settings ≠ .ok (.rejected next) := by
  obtain ⟨step, residuals, solved, evaluated, gained⟩ := gains
  intro tried
  obtain ⟨other, found, solvedToo, evaluatedToo, ⟨-, impossible⟩ | ⟨-, -, _, -, impossible⟩ |
    ⟨-, lost, -⟩⟩ := attempt_cases tried
  · cases impossible
  · cases impossible
  · obtain rfl := Except.ok.inj (solved.symm.trans solvedToo)
    obtain rfl := Except.ok.inj (evaluated.symm.trans evaluatedToo)
    exact lost gained

section Gaining

variable (fresh : head.Fresh)
  (differentiable : problem.HasJacobianAt head.search.params head.linearization.jacobian)
  (slope : ∃ i, head.linearization.gradient.get i ≠ 0)

include fresh differentiable slope

theorem Fresh.eventually_lower :
    ∀ᶠ step in 𝓝 0, ∀ damping : ℝ, 0 < damping →
      head.linearization.jacobian.toMatrixᵀ *ᵥ (head.linearization.jacobian.toMatrix *ᵥ step) +
          damping • step = -head.linearization.gradient.get →
      ∃ residuals, problem.residuals (.ofFn (head.search.params.get + step)) = .ok residuals ∧
        Problem.halfSquare residuals < head.linearization.cost := by
  obtain ⟨residuals, computed, derivative⟩ := differentiable
  have here : residuals head.search.params.get = head.linearization.residuals.get := by
    have evaluated := computed.self_of_nhds
    rw [ofFn_get, fresh.residuals_eq] at evaluated
    rw [Except.ok.inj evaluated, get_ofFn]
  have gradient : head.linearization.jacobian.toMatrixᵀ *ᵥ residuals head.search.params.get =
      head.linearization.gradient.get := by
    rw [here, head.linearization.gradient_eq, DenseMatrix.transposeApply_eq_mulVec]
  have steep : head.linearization.jacobian.toMatrixᵀ *ᵥ residuals head.search.params.get ≠ 0 := by
    obtain ⟨i, steep⟩ := slope
    rw [gradient]
    exact fun flat => steep (congrFun flat i)
  have lower := eventually_square_lt derivative steep
  rw [← map_add_left_nhds_zero, eventually_map] at computed
  filter_upwards [computed, lower] with step evaluated lower damping damped normal
  refine ⟨_, evaluated, ?_⟩
  have value := lower damping damped (gradient ▸ normal)
  rwa [here, ← halfSquare_eq, ← get_ofFn (residuals _), ← halfSquare_eq] at value

theorem Fresh.exists_damping_gains :
    ∃ bound, ∀ other : Head problem, other.search.params = head.search.params →
      other.linearization = head.linearization → 0 < other.search.damping →
        bound ≤ other.search.damping → other.Gains := by
  obtain ⟨bound, short⟩ :=
    exists_damping_of_eventually (fresh.eventually_lower differentiable slope)
  refine ⟨bound, fun other params linearization damped strong => ?_⟩
  obtain ⟨step, solved⟩ := other.solvable damped
  have moved : (other.proposed step).params = .ofFn (head.search.params.get + step.get) := by
    rw [← params, ← ofFn_get (other.proposed step).params]
    exact congrArg Vector.ofFn (other.search.tick.params_propose step)
  rw [← linearization] at slope short
  obtain ⟨i, steep⟩ := slope
  obtain ⟨residuals, evaluated, lower⟩ := short _ step.get damped strong solved.normal
  refine ⟨step, residuals, solved, (congrArg problem.residuals moved).trans evaluated, ?_⟩
  exact (other.gain_pos_iff_of_predicted _ (solved.predicted_pos damped steep)).mpr lower

end Gaining

end Head

/-! ## Runs of rejections -/

theorem Round.takeBack_eq {head next : Head problem} {proposal : Proposal ℝ problem.parameterCount}
    (round : Round settings head proposal next) (rejected : proposal.kept = false) :
    next = head.takeBack proposal.step ∧ head.attempt settings = .ok (.rejected next) := by
  constructor
  · obtain ⟨-, -, _, -, ⟨kept, -⟩ | ⟨-, -, same⟩⟩ := round.inversion
    · cases kept.symm.trans rejected
    · exact same
  · cases round with
    | accepted going solved tried => cases rejected
    | rejected going solved tried => exact tried

theorem Path.takenBack_eq {head last : Head problem}
    {proposals : List (Proposal ℝ problem.parameterCount)}
    (path : Path settings head proposals last)
    (rejected : ∀ proposal ∈ proposals, proposal.kept = false) :
    last = head.takenBack (proposals.map (·.step)) := by
  induction path with
  | here head => rfl
  | next round rest ih =>
      obtain ⟨first, others⟩ := List.forall_mem_cons.mp rejected
      obtain ⟨rfl, -⟩ := round.takeBack_eq first
      exact ih others

theorem Path.length_le_of_gains {head last : Head problem}
    {proposals : List (Proposal ℝ problem.parameterCount)}
    (path : Path settings head proposals last)
    (rejected : ∀ proposal ∈ proposals, proposal.kept = false) {enough : Nat}
    (gains : ∀ steps, enough ≤ steps.length → (head.takenBack steps).Gains) :
    proposals.length ≤ enough := by
  induction path generalizing enough with
  | here head => exact Nat.zero_le _
  | next round rest ih =>
      obtain ⟨first, others⟩ := List.forall_mem_cons.mp rejected
      obtain ⟨rfl, tried⟩ := round.takeBack_eq first
      cases enough with
      | zero => exact absurd tried ((gains [] (Nat.le_refl 0)).not_rejected _)
      | succ enough =>
          refine Nat.succ_le_succ (ih others fun steps many => ?_)
          exact gains (_ :: steps) (Nat.succ_le_succ many)

/-- Rejections in a row double the growth of the damping each time, and where the residuals have the
Jacobian as derivative and the gradient is not zero they come to an end: after enough of them the
step solved for has a gain above zero, and it is kept unless it is too short to go on. -/
theorem rejections_end (problem : Problem ℝ) (head : Head problem) (fresh : head.Fresh)
    (differentiable : problem.HasJacobianAt head.search.params head.linearization.jacobian)
    (slope : ∃ i, head.linearization.gradient.get i ≠ 0) (damped : 0 < head.search.damping)
    (growth : head.search.growth = 2) :
    (∀ steps, (head.takenBack steps).search.params = head.search.params ∧
      (head.takenBack steps).linearization = head.linearization ∧
      (head.takenBack steps).search.damping =
        head.search.damping * 2 ^ (steps.length * (steps.length + 1) / 2)) ∧
    ∃ enough,
      (∀ steps, enough ≤ steps.length → ∃ step residuals, (head.takenBack steps).Solves step ∧
        problem.residuals ((head.takenBack steps).proposed step).params = .ok residuals ∧
        ((0 : Nat) : ℝ) < (head.takenBack steps).gain step residuals ∧
        ∀ settings : Settings ℝ,
          ¬ ((head.takenBack steps).proposed step).stepLength ≤ settings.stepTolerance →
            (head.takenBack steps).attempt settings =
              (Linearization.withResiduals problem ((head.takenBack steps).proposed step).params
                residuals).map fun linearization =>
                  .accepted
                    { search := ((head.takenBack steps).proposed step).accept
                        ((head.takenBack steps).gain step residuals)
                      linearization }) ∧
      ∀ settings proposals last, Path settings head proposals last →
        (∀ proposal ∈ proposals, proposal.kept = false) →
          last = head.takenBack (proposals.map (·.step)) ∧ proposals.length ≤ enough := by
  obtain ⟨bound, strong⟩ := fresh.exists_damping_gains differentiable slope
  obtain ⟨enough, large⟩ := Head.exists_damping_ge growth damped bound
  have gains (steps : List (Vector ℝ problem.parameterCount)) (many : enough ≤ steps.length) :
      (head.takenBack steps).Gains := by
    refine strong _ (head.takenBack_params steps) (head.takenBack_linearization steps) ?_
      (large steps many)
    rw [(Head.takenBack_schedule steps growth).1]
    positivity
  refine ⟨fun steps => ⟨head.takenBack_params steps, head.takenBack_linearization steps,
    (Head.takenBack_schedule steps growth).1⟩, enough, fun steps many => ?_,
    fun settings proposals last path rejected =>
      ⟨path.takenBack_eq rejected, path.length_le_of_gains rejected gains⟩⟩
  obtain ⟨step, residuals, solved, evaluated, gained⟩ := gains steps many
  refine ⟨step, residuals, solved, evaluated, gained, fun settings long => ?_⟩
  rw [solved.attempt_eq evaluated, if_neg long, if_pos gained]

/-! ## A jump next to the start -/

/-- The equation `vanishing` near one, with a residual of another height farther away. -/
noncomputable def cliff (radius height : ℝ) : Problem ℝ where
  parameterCount := 1
  residualCount := 1
  residuals params :=
    if |params.get 0 - 1| < radius then vanishing.residuals params else .ok #v[height]
  jacobian := vanishing.jacobian

noncomputable def cliffHead (radius height : ℝ) : Head (cliff radius height) where
  search := (vanishingHead 1).search
  linearization := vanishingAtOne

section Cliff

variable {radius height : ℝ}

theorem cliff_residuals_near {place : ℝ} (near : |place - 1| < radius) :
    (cliff radius height).residuals #v[place] = .ok #v[-place] :=
  (if_pos near).trans (vanishing_residuals place)

theorem cliff_residuals_far {place : ℝ} (far : ¬ |place - 1| < radius) :
    (cliff radius height).residuals #v[place] = .ok #v[height] :=
  if_neg far

theorem cliffHead_fresh (positive : 0 < radius) : (cliffHead radius height).Fresh := by
  have near : |(1 : ℝ) - 1| < radius := by rwa [sub_self, abs_zero]
  refine Linearization.of_eq_ok.mpr ⟨#v[-1], cliff_residuals_near near, ?_⟩
  exact Except.map_eq_ok.mpr ⟨_, vanishing_jacobian #v[1], rfl⟩

theorem cliff_residuals_ofFn {place : Fin 1 → ℝ} (near : |place 0 - 1| < radius) :
    (cliff radius height).residuals (.ofFn place) = .ok (.ofFn fun _ => -place 0) := by
  have single (f : Fin 1 → ℝ) : Vector.ofFn f = #v[f 0] := by
    rw [eq_single (Vector.ofFn f), Vector.get_ofFn]
  exact (congrArg (cliff radius height).residuals (single place)).trans
    ((cliff_residuals_near near).trans (congrArg Except.ok (single fun _ => -place 0).symm))

theorem cliff_hasJacobianAt (positive : 0 < radius) :
    (cliff radius height).HasJacobianAt #v[1] #v[#v[-1]] := by
  have slope : (fun place (_ : Fin 1) => -place 0) =
      (DenseMatrix.toMatrix #v[#v[-1]]).mulVecLin.toContinuousLinearMap := by
    ext place k
    simp [mulVec, dotProduct, DenseMatrix.entry, get_eq_getElem]
  have continuous : Continuous fun place : Fin 1 → ℝ => |place 0 - 1| := by fun_prop
  have zero : |(#v[1] : Vector ℝ 1).get 0 - 1| = 0 := by simp [get_eq_getElem]
  have near :=
    (continuous.tendsto' (#v[1] : Vector ℝ 1).get 0 zero).eventually_lt_const positive
  refine ⟨fun place _ => -place (0 : Fin 1), near.mono fun place => cliff_residuals_ofFn, ?_⟩
  exact slope ▸ ContinuousLinearMap.hasFDerivAt _

theorem cliffHead_slope : ∃ i, (cliffHead radius height).linearization.gradient.get i ≠ 0 := by
  refine ⟨(0 : Fin 1), ?_⟩
  change vanishingAtOne.gradient.get 0 ≠ 0
  rw [vanishingAtOne_gradient]
  exact one_ne_zero

theorem cliff_rejects (short : radius ≤ 1 / 2) (up : 1 ≤ height) :
    Round .standard (cliffHead radius height) ⟨#v[1], #v[-1 / 2], false⟩
      ((cliffHead radius height).takeBack #v[-1 / 2]) := by
  let settings : Settings ℝ := { Settings.standard with initialDampingScale := 1 }
  obtain ⟨-, tolerance, long⟩ := standard_tolerances
  have normal : (1 + settings.initialDampingScale) * (-1 / 2) = -1 := by
    norm_num [settings]
  have longer : settings.stepTolerance < |-1 / 2| := by
    norm_num
    exact long
  have proposes := vanishing_proposes normal tolerance longer
  have solved : (cliffHead radius height).Solves #v[-1 / 2] := proposes.solved
  have evaluated : (cliff radius height).residuals
      ((cliffHead radius height).proposed #v[-1 / 2]).params = .ok #v[height] := by
    have moved : ((cliffHead radius height).proposed #v[-1 / 2]).params = #v[1 + -1 / 2] :=
      (eq_single _).trans (congrArg (#v[·]) (get_zipWith _ _ _ _))
    have half : |(1 : ℝ) + -1 / 2 - 1| = 1 / 2 := by norm_num
    rw [moved]
    exact cliff_residuals_far (half ▸ short.not_gt)
  obtain ⟨i, steep⟩ := cliffHead_slope
  have predicted := solved.predicted_pos one_pos steep
  have higher : Problem.halfSquare #v[-1] ≤ Problem.halfSquare #v[height] := by
    rw [halfSquare_single, halfSquare_single]
    nlinarith
  have lost : ¬ ((0 : Nat) : ℝ) < (cliffHead radius height).gain #v[-1 / 2] #v[height] :=
    fun gained => not_lt.mpr higher
      (((cliffHead radius height).gain_pos_iff_of_predicted #v[height] predicted).mp gained)
  exact .rejected proposes.going solved
    ((solved.attempt_eq evaluated).trans ((if_neg proposes.long).trans (if_neg lost)))

end Cliff

theorem rejections_end_cliff :
    Round .standard (cliffHead (1 / 4) 10) ⟨#v[1], #v[-1 / 2], false⟩
      ((cliffHead (1 / 4) 10).takeBack #v[-1 / 2]) ∧
    ∃ enough, 0 < enough ∧ ∀ steps, enough ≤ steps.length →
      ((cliffHead (1 / 4) 10).takenBack steps).search.damping =
        2 ^ (steps.length * (steps.length + 1) / 2) ∧
      ((cliffHead (1 / 4) 10).takenBack steps).Gains := by
  have positive : (0 : ℝ) < 1 / 4 := by norm_num
  have rejects : Round .standard (cliffHead (1 / 4) 10) ⟨#v[1], #v[-1 / 2], false⟩
      ((cliffHead (1 / 4) 10).takeBack #v[-1 / 2]) := cliff_rejects (by norm_num) (by norm_num)
  obtain ⟨schedule, enough, gains, rejected⟩ := rejections_end (cliff (1 / 4) 10)
    (cliffHead (1 / 4) 10) (cliffHead_fresh positive) (cliff_hasJacobianAt positive)
    cliffHead_slope one_pos Nat.cast_ofNat
  refine ⟨rejects, enough, ?_, fun steps many => ⟨?_, ?_⟩⟩
  · exact (rejected .standard _ _ (.next rejects (.here _)) (by simp)).2
  · exact (schedule steps).2.2.trans (one_mul _)
  · obtain ⟨step, residuals, solved, evaluated, gained, -⟩ := gains steps many
    exact ⟨step, residuals, solved, evaluated, gained⟩

end LeastSquares
