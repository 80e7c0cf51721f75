import LeastSquares.Proofs.Solver.Reduction
import LeastSquares.Proofs.Solver.Stopping

namespace LeastSquares

open Matrix

theorem larger_real : Scalar.larger = (max : ℝ → ℝ → ℝ) := by
  funext a b
  change (if a < b then b else a) = max a b
  split_ifs with below
  · exact (max_eq_right below.le).symm
  · exact (max_eq_left (not_lt.mp below)).symm

theorem initialDamping_eq {n : Nat} {hessian : DenseMatrix ℝ n n}
    (nonneg : ∀ i, 0 ≤ hessian.entry i i) (scale : ℝ) :
    ∃ top, 0 ≤ top ∧ (∀ i, hessian.entry i i ≤ top) ∧
      initialDamping hessian scale = scale * top := by
  have diagonal (P : ℝ → Prop) :
      (∀ a ∈ hessian.diagonal.toList, P a) ↔ ∀ i, P (hessian.entry i i) := by
    rw [forall_mem_toList]
    exact forall_congr' fun i => by rw [DenseMatrix.diagonal, Vector.get_ofFn]
  have numbers : hessian.diagonal.toList.filter (!Scalar.isNaN ·) = hessian.diagonal.toList :=
    List.filter_eq_self.mpr fun _ _ => rfl
  rw [initialDamping, numbers]
  cases entries : hessian.diagonal.toList with
  | nil =>
      refine ⟨0, le_refl 0, (diagonal (· ≤ 0)).mp ?_, congrArg (scale * ·) neg_zero⟩
      rw [entries]
      exact List.forall_mem_nil _
  | cons first others =>
      have largest : (first :: others).max? = some (others.foldl Scalar.larger first) := by
        rw [larger_real, List.max?_cons']
      obtain ⟨attained, above⟩ := List.max?_eq_some_iff.mp largest
      rw [← entries] at attained above
      exact ⟨_, (diagonal (0 ≤ ·)).mpr nonneg _ attained, (diagonal (· ≤ _)).mp above, rfl⟩

theorem Linearization.initialDamping_eq {m n : Nat} (linearization : Linearization ℝ m n)
    (scale : ℝ) : ∃ top, 0 ≤ top ∧
      initialDamping linearization.hessian scale = scale * top ∧
      ((∃ i, linearization.gradient.get i ≠ 0) → 0 < top) := by
  have square {k : Nat} (v : Fin k → ℝ) : 0 ≤ v ⬝ᵥ v := dotProduct_star_self_nonneg v
  obtain ⟨top, nonneg, above, damping⟩ := LeastSquares.initialDamping_eq
    (fun i => by rw [linearization.hessian_entry_self]; exact square _) scale
  refine ⟨top, nonneg, damping, fun ⟨i, slope⟩ => lt_of_lt_of_le ?_ (above i)⟩
  have column : (fun k => linearization.jacobian.entry k i) ≠ 0 := by
    intro zero
    apply slope
    rw [linearization.gradient_apply, zero, zero_dotProduct]
  rw [linearization.hessian_entry_self]
  exact dotProduct_star_self_pos_iff.mpr column

theorem shrinkFactor_pos (gain : ℝ) : 0 < shrinkFactor gain := by
  unfold shrinkFactor
  rw [larger_real]
  apply lt_max_of_lt_left
  rw [Nat.cast_one, Nat.cast_ofNat]
  exact div_pos one_pos three_pos

variable {problem : Problem ℝ} {settings : Settings ℝ}

theorem Round.damping_eq {head next : Head problem} {proposal : Proposal ℝ problem.parameterCount}
    (round : Round settings head proposal next) (growing : 0 < head.search.growth) :
    ∃ factor, 0 < factor ∧ next.search.damping = head.search.damping * factor ∧
      0 < next.search.growth := by
  obtain ⟨-, -, residuals, -, ⟨-, -, _, -, rfl⟩ | ⟨-, -, rfl⟩⟩ := round.inversion
  · refine ⟨_, shrinkFactor_pos _, rfl, ?_⟩
    change (0 : ℝ) < ((2 : Nat) : ℝ)
    exact Nat.cast_pos.mpr two_pos
  · refine ⟨_, growing, rfl, mul_pos growing ?_⟩
    exact Nat.cast_pos.mpr two_pos

theorem Path.damping_eq {head last : Head problem}
    {proposals : List (Proposal ℝ problem.parameterCount)}
    (path : Path settings head proposals last) (growing : 0 < head.search.growth) :
    ∃ factor, 0 < factor ∧ last.search.damping = head.search.damping * factor ∧
      0 < last.search.growth := by
  induction path with
  | here head => exact ⟨1, one_pos, (mul_one _).symm, growing⟩
  | next round rest ih =>
      obtain ⟨first, firstPos, damping, growing⟩ := round.damping_eq growing
      obtain ⟨others, othersPos, rest, growing⟩ := ih growing
      refine ⟨first * others, mul_pos firstPos othersPos, ?_, growing⟩
      rw [rest, damping, mul_assoc]

theorem Head.slope_of_going {head : Head problem} (positive : 0 < settings.gradientTolerance)
    (going : head.stop? settings = none) : ∃ i, head.linearization.gradient.get i ≠ 0 := by
  by_contra flat
  apply (Head.stop?_eq_none.mp going).2
  rw [Linearization.gradientNorm, (infNorm_of_numbers fun _ => rfl).2, Nat.cast_zero]
  refine ⟨positive, fun i => ?_⟩
  have zero : head.linearization.gradient.get i = 0 := by
    by_contra slope
    exact flat ⟨i, slope⟩
  rw [zero]
  exact abs_zero.trans_lt positive

theorem Head.going_of_steep {head : Head problem} {i : Fin problem.parameterCount}
    (steep : settings.gradientTolerance ≤ |head.linearization.gradient.get i|) :
    head.stop? settings = none := by
  refine Head.stop?_eq_none.mpr ⟨rfl, fun small => not_lt.mpr steep ?_⟩
  exact ((infNorm_of_numbers fun _ => rfl).2 _ |>.mp small).2 i

theorem Visits.damping_eq {initial : List ℝ}
    {proposals : List (Proposal ℝ problem.parameterCount)} {head : Head problem}
    (visits : Visits problem settings initial proposals head) :
    ∃ size, 0 ≤ size ∧ head.search.damping = settings.initialDampingScale * size ∧
      0 < head.search.growth ∧
      (0 < settings.gradientTolerance → head.stop? settings = none → 0 < size) := by
  obtain ⟨start, first, -, found, path, -⟩ := visits
  have search := Head.initial_search found
  have growing : 0 < first.search.growth := by
    rw [search]
    exact Nat.cast_pos.mpr two_pos
  obtain ⟨factor, factorPos, damping, growing⟩ := path.damping_eq growing
  obtain ⟨top, nonneg, initial, topPos⟩ :=
    first.linearization.initialDamping_eq settings.initialDampingScale
  refine ⟨top * factor, mul_nonneg nonneg factorPos.le, ?_, growing, fun positive going => ?_⟩
  · rw [damping, search]
    exact (congrArg (· * factor) initial).trans (mul_assoc _ _ _)
  · -- Where a run goes on it has gone on from the start, so the first gradient is not zero either.
    have goingFirst : first.stop? settings = none := by
      cases path with
      | here => exact going
      | next round rest => exact round.going
    exact mul_pos (topPos (Head.slope_of_going positive goingFirst)) factorPos

theorem Visits.damping_pos {initial : List ℝ}
    {proposals : List (Proposal ℝ problem.parameterCount)} {head : Head problem}
    (visits : Visits problem settings initial proposals head)
    (scale : 0 < settings.initialDampingScale) (tolerance : 0 < settings.gradientTolerance)
    (going : head.stop? settings = none) : 0 < head.search.damping := by
  obtain ⟨size, -, damping, -, positive⟩ := visits.damping_eq
  rw [damping]
  exact mul_pos scale (positive tolerance going)

theorem standard_scale_pos : 0 < (Settings.standard : Settings ℝ).initialDampingScale := by
  norm_num [Settings.standard, Scalar.ofDecimal]

theorem standard_tolerances : 0 < (Settings.standard : Settings ℝ).gradientTolerance ∧
    (Settings.standard : Settings ℝ).gradientTolerance ≤ 1 ∧
    (Settings.standard : Settings ℝ).stepTolerance < 1 / 2 := by
  norm_num [Settings.standard, Scalar.ofDecimal]

end LeastSquares
