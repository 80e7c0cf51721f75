import LeastSquares.Fit
import LeastSquares.Proofs.Data.Rows
import LeastSquares.Proofs.Linear.Matrices
import LeastSquares.Proofs.Model.Columns

namespace LeastSquares

/-- Points that lead from `low` to `high` without turning back. -/
structure Spans {points : ℕ} (x : Vector ℝ points) (low high : ℝ) : Prop where
  first : x[0]? = some low
  last : x[points - 1]? = some high
  monotone : Monotone x.get

namespace Spans

variable {points : ℕ} {x : Vector ℝ points} {low high : ℝ}

theorem between (spans : Spans x low high) (k : Fin points) : low ≤ x.get k ∧ x.get k ≤ high := by
  have enough := k.isLt
  obtain ⟨_, first⟩ := Vector.getElem?_eq_some_iff.mp spans.first
  obtain ⟨_, last⟩ := Vector.getElem?_eq_some_iff.mp spans.last
  constructor
  · rw [← first]
    exact spans.monotone (show ⟨0, by omega⟩ ≤ k from Nat.zero_le _)
  · rw [← last]
    exact spans.monotone (show k ≤ ⟨points - 1, by omega⟩ from Nat.le_pred_of_lt enough)

theorem map (spans : Spans x low high) {f : ℝ → ℝ} (increasing : Monotone f) :
    Spans (x.map f) (f low) (f high) where
  first := by rw [Vector.getElem?_map, spans.first, Option.map_some]
  last := by rw [Vector.getElem?_map, spans.last, Option.map_some]
  monotone := by
    intro k k' before
    rw [Vector.get_map, Vector.get_map]
    exact increasing (spans.monotone before)

end Spans

namespace AxisScale

variable {low high : ℝ} {points : ℕ}

noncomputable def stride (low high : ℝ) (points : ℕ) : ℝ :=
  (high - low) / (points - 1 : ℕ)

theorem get_evenly (k : Fin points) :
    (evenly low high points).get k = low + stride low high points * k := by
  rw [evenly, Vector.get_ofFn]
  rfl

theorem stride_nonneg (ordered : low ≤ high) : 0 ≤ stride low high points :=
  div_nonneg (sub_nonneg.mpr ordered) (Nat.cast_nonneg _)

theorem stride_mul (enough : 2 ≤ points) :
    stride low high points * (points - 1 : ℕ) = high - low := by
  rw [stride, div_mul_cancel₀]
  exact Nat.cast_ne_zero.mpr (by omega)

theorem evenly_spans (ordered : low ≤ high) (enough : 2 ≤ points) :
    Spans (evenly low high points) low high where
  first := by
    refine Vector.getElem?_eq_some_iff.mpr ⟨by omega, (get_evenly ⟨0, by omega⟩).trans ?_⟩
    rw [Nat.cast_zero, mul_zero, add_zero]
  last := by
    refine Vector.getElem?_eq_some_iff.mpr ⟨by omega, (get_evenly ⟨points - 1, by omega⟩).trans ?_⟩
    rw [stride_mul enough, add_sub_cancel]
  monotone := by
    intro k k' before
    rw [get_evenly, get_evenly]
    gcongr
    · exact stride_nonneg ordered
    · exact before

/-- Neighbouring points of a linear scale have one difference, those of a logarithmic one ratio. -/
def Regular (scale : AxisScale) (x : Vector ℝ points) : Prop :=
  match scale with
  | linear => ∃ step, ∀ k k' : Fin points, k'.val = k.val + 1 → x.get k' - x.get k = step
  | logarithmic => ∃ ratio, ∀ k k' : Fin points, k'.val = k.val + 1 → x.get k' / x.get k = ratio

theorem spaced_linear (ordered : low ≤ high) (enough : 2 ≤ points) :
    ∃ x, spaced .linear low high points = .ok x ∧ Spans x low high ∧ Regular .linear x := by
  refine ⟨_, rfl, evenly_spans ordered enough, stride low high points, fun k k' next => ?_⟩
  rw [get_evenly, get_evenly, next, Nat.cast_succ]
  ring

theorem spaced_logarithmic_eq (positive : 0 < low) :
    spaced .logarithmic low high points =
      .ok ((evenly (Real.logb 10 low) (Real.logb 10 high) points).map fun u => (10 : ℝ) ^ u) := by
  have above : ¬ low ≤ ((0 : ℕ) : ℝ) := by
    rw [Nat.cast_zero]
    exact positive.not_ge
  rw [spaced, if_neg above, Nat.cast_ofNat]
  rfl

theorem spaced_logarithmic (positive : 0 < low) (ordered : low ≤ high) (enough : 2 ≤ points) :
    ∃ x, spaced .logarithmic low high points = .ok x ∧ Spans x low high ∧
      Regular .logarithmic x := by
  have ten : (1 : ℝ) < 10 := by norm_num
  have exponents := evenly_spans (Real.logb_le_logb_of_le ten positive ordered) enough
  have spans := exponents.map (Real.monotone_rpow_of_base_ge_one ten.le)
  rw [Real.rpow_logb (by norm_num) (by norm_num) positive,
    Real.rpow_logb (by norm_num) (by norm_num) (positive.trans_le ordered)] at spans
  refine ⟨_, spaced_logarithmic_eq positive, spans,
    10 ^ stride (Real.logb 10 low) (Real.logb 10 high) points, fun k k' next => ?_⟩
  rw [Vector.get_map, Vector.get_map, get_evenly, get_evenly, next, Nat.cast_add_one,
    ← Real.rpow_sub (by norm_num)]
  congr 1
  ring

end AxisScale

namespace Model

variable {model : Model ℝ} {data : Dataset ℝ} {params : List ℝ} {points : ℕ} {scale : AxisScale}

theorem sampleCurve_eq (enough : 2 ≤ points) :
    model.sampleCurve params data points scale =
      (scale.spaced data.range.1 data.range.2 points).bind fun x =>
        (model.eval x params).map fun y => (x, y) := by
  rw [sampleCurve, if_neg (by omega)]
  rfl

theorem sampleCurve_tooFewPoints (few : points < 2) :
    model.sampleCurve params data points scale = .error (.tooFewPoints points) :=
  if_pos few

theorem sampleCurve_logarithmicRange (enough : 2 ≤ points) (low : data.range.1 ≤ 0) :
    model.sampleCurve params data points .logarithmic =
      .error (.logarithmicRange data.range.1) := by
  rw [← Nat.cast_zero] at low
  rw [sampleCurve_eq enough, AxisScale.spaced, if_pos low]
  rfl

theorem exists_spaced (enough : 2 ≤ points) (positive : scale = .logarithmic → 0 < data.range.1) :
    ∃ x, scale.spaced data.range.1 data.range.2 points = .ok x ∧
      Spans x data.range.1 data.range.2 ∧ scale.Regular x := by
  cases scale with
  | linear => exact AxisScale.spaced_linear data.range_ordered enough
  | logarithmic => exact AxisScale.spaced_logarithmic (positive rfl) data.range_ordered enough

theorem sampleCurve_parameterCount (enough : 2 ≤ points)
    (positive : scale = .logarithmic → 0 < data.range.1) (differs : params.length ≠ model.arity) :
    model.sampleCurve params data points scale =
      .error (.parameterCount model.arity params.length) := by
  obtain ⟨x, spaced, -, -⟩ := exists_spaced enough positive
  rw [sampleCurve_eq enough, spaced, Except.bind, eval, if_neg differs]
  rfl

theorem sampleCurve_ok (enough : 2 ≤ points) (positive : scale = .logarithmic → 0 < data.range.1)
    (fits : params.length = model.arity) :
    ∃ x, model.sampleCurve params data points scale =
        .ok (x, model.formula.column x params) ∧
      Spans x data.range.1 data.range.2 ∧ scale.Regular x := by
  obtain ⟨x, spaced, spans, regular⟩ := exists_spaced enough positive
  refine ⟨x, ?_, spans, regular⟩
  rw [sampleCurve_eq enough, spaced, Except.bind, model.eval_eq x fits]
  rfl

/-- The sampled curve of a fit leads from the smallest sample of the data to the largest in equal
steps or equal ratios and takes the values of the model there. -/
theorem sampleCurve_spans (model : Model ℝ) (data : Dataset ℝ) (report : FitReport ℝ) (points : ℕ)
    (scale : AxisScale) :
    ∃ low high, IsLeast {sample | sample ∈ data.x.toList} low ∧
      IsGreatest {sample | sample ∈ data.x.toList} high ∧
      ((∃ cause, model.sampleCurve report.params data points scale = .error cause) ↔
        points < 2 ∨ scale = .logarithmic ∧ low ≤ 0 ∨ report.params.length ≠ model.arity) ∧
      (points < 2 →
        model.sampleCurve report.params data points scale = .error (.tooFewPoints points)) ∧
      (2 ≤ points → scale = .logarithmic → low ≤ 0 →
        model.sampleCurve report.params data points scale = .error (.logarithmicRange low)) ∧
      (2 ≤ points → (scale = .logarithmic → 0 < low) → report.params.length ≠ model.arity →
        model.sampleCurve report.params data points scale =
          .error (.parameterCount model.arity report.params.length)) ∧
      (2 ≤ points → (scale = .logarithmic → 0 < low) → report.params.length = model.arity →
        ∃ x y, model.sampleCurve report.params data points scale = .ok (x, y) ∧
          x[0]? = some low ∧ x[points - 1]? = some high ∧
          (∀ k, low ≤ x.get k ∧ x.get k ≤ high) ∧ Monotone x.get ∧ scale.Regular x ∧
          ∀ k, y.get k = model.formula.evaluate (x.get k) report.params) := by
  obtain ⟨lowest, highest, between⟩ := data.range_spans
  refine ⟨data.range.1, data.range.2, ⟨lowest, fun sample member => (between sample member).1⟩,
    ⟨highest, fun sample member => (between sample member).2⟩, ?_, sampleCurve_tooFewPoints,
    fun enough same => same ▸ sampleCurve_logarithmicRange enough, sampleCurve_parameterCount,
    fun enough positive fits => ?_⟩
  · constructor
    · rintro ⟨cause, refused⟩
      by_contra allowed
      push Not at allowed
      obtain ⟨enough, positive, fits⟩ := allowed
      obtain ⟨x, sampled, -⟩ := sampleCurve_ok enough positive fits
      rw [sampled] at refused
      cases refused
    · intro forbidden
      by_cases few : points < 2
      · exact ⟨_, sampleCurve_tooFewPoints few⟩
      · have enough : 2 ≤ points := not_lt.mp few
        by_cases unusable : scale = .logarithmic ∧ data.range.1 ≤ 0
        · obtain ⟨rfl, low⟩ := unusable
          exact ⟨_, sampleCurve_logarithmicRange enough low⟩
        · have differs := (forbidden.resolve_left few).resolve_left unusable
          exact ⟨_, sampleCurve_parameterCount enough
            (fun same => not_le.mp fun low => unusable ⟨same, low⟩) differs⟩
  · obtain ⟨x, sampled, spans, regular⟩ := sampleCurve_ok enough positive fits
    exact ⟨x, _, sampled, spans.first, spans.last, spans.between, spans.monotone, regular,
      fun k => Formula.get_column x report.params model.formula k⟩

end Model

end LeastSquares
