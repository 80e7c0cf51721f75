import LeastSquares.Proofs.Formula.Smoothness

namespace LeastSquares

open Topology

theorem Elementary.contDiffAt_apply {f : Elementary} {value : ℝ} (regular : f.Regular value) :
    ContDiffAt ℝ 2 (f.apply : ℝ → ℝ) value := by
  cases f with
  | exp => exact Real.contDiff_exp.contDiffAt
  | log => exact Real.contDiffAt_log.mpr (ne_of_gt regular)
  | log10 => exact (Real.contDiffAt_log.mpr (ne_of_gt regular)).div_const _
  | sin => exact Real.contDiff_sin.contDiffAt
  | cos => exact Real.contDiff_cos.contDiffAt
  | tan => exact Real.contDiffAt_tan.mpr regular
  | sqrt => exact Real.contDiffAt_sqrt (ne_of_gt regular)

theorem Elementary.eventually_regular {f : Elementary} {value : ℝ} (regular : f.Regular value) :
    ∀ᶠ near in 𝓝 value, f.Regular near := by
  cases f with
  | exp | sin | cos => exact .of_forall fun _ => trivial
  | log | log10 | sqrt => exact lt_mem_nhds regular
  | tan => exact Real.continuous_cos.continuousAt.eventually_ne regular

namespace Formula

/-! ## Smooth points -/

section Coordinates

variable {n : Nat} {x : ℝ} {q : Fin n → ℝ}

theorem contDiffAt_evaluate {formula : Formula ℝ} (smooth : formula.Smooth x (List.ofFn q)) :
    ContDiffAt ℝ 2 (fun p : Fin n → ℝ => formula.evaluate x (List.ofFn p)) q := by
  induction formula with
  | number value => exact contDiffAt_const
  | sample => exact contDiffAt_const
  | param index =>
      by_cases bound : index < n
      · simpa [evaluate, bound] using contDiffAt_apply ℝ ℝ (⟨index, bound⟩ : Fin n) q
      · simpa [evaluate, bound] using contDiffAt_const
  | neg operand ih => exact (ih smooth).neg
  | binary op u v ihu ihv =>
      obtain ⟨left, right, atNode⟩ := smooth
      have leftToo := ihu left
      have rightToo := ihv right
      cases op with
      | add => exact leftToo.add rightToo
      | sub => exact leftToo.sub rightToo
      | mul => exact leftToo.mul rightToo
      | div => exact leftToo.div rightToo atNode
      | pow => exact leftToo.rpow rightToo atNode.base_ne_zero
  | call f argument ih =>
      exact (Elementary.contDiffAt_apply smooth.2).comp q (ih smooth.1)

theorem eventually_smooth {formula : Formula ℝ} (smooth : formula.Smooth x (List.ofFn q)) :
    ∀ᶠ p in 𝓝 q, formula.Smooth x (List.ofFn p) := by
  induction formula with
  | number _ | sample | param _ => exact .of_forall fun _ => trivial
  | neg operand ih => exact ih smooth
  | binary op u v ihu ihv =>
      obtain ⟨left, right, atNode⟩ := smooth
      have base := (contDiffAt_evaluate left).continuousAt
      have divisor := (contDiffAt_evaluate right).continuousAt
      refine (ihu left).and ((ihv right).and ?_)
      cases op with
      | add | sub | mul => exact .of_forall fun _ => trivial
      | div => exact divisor.eventually_ne atNode
      | pow =>
          rcases atNode with positive | ⟨nonzero, fixed, k, whole⟩
          · exact (base.eventually (lt_mem_nhds positive)).mono fun p near => .inl near
          · refine (base.eventually_ne nonzero).mono fun p near => .inr ⟨near, fixed, k, ?_⟩
            rw [← whole]
            apply evaluate_congr
            intro i mentioned
            rw [(parameters_eq_nil v).mp fixed i] at mentioned
            cases mentioned
  | call f argument ih =>
      have inner := (contDiffAt_evaluate smooth.1).continuousAt
      exact (ih smooth.1).and (inner.eventually (Elementary.eventually_regular smooth.2))

/-! ## Mixed derivatives -/

theorem covered_derivative {formula : Formula ℝ} {bound : Nat}
    (covered : ∀ i ∈ formula.parameters, i < bound) (index : Nat) :
    ∀ i ∈ (formula.derivative index).parameters, i < bound := by
  intro i mentioned
  apply covered
  rw [mem_parameters] at mentioned ⊢
  exact dependsOn_of_derivative mentioned

/-- The direction of a parameter. There is none beyond the last. -/
def direction (n index : Nat) : Fin n → ℝ :=
  fun k => if k.val = index then 1 else 0

theorem set_ofFn (q : Fin n → ℝ) (index : Nat) (t : ℝ) :
    (List.ofFn q).set index t =
      List.ofFn (q + (t - (List.ofFn q)[index]?.getD Scalar.nan) • direction n index) := by
  apply List.ext_getElem
  · simp
  · intro k bound boundToo
    by_cases same : index = k
    · subst same
      have within : index < n := by simpa using boundToo
      simp [direction, within]
    · simp [direction, List.getElem_set_ne same, Ne.symm same]

theorem evaluate_derivative_eq_fderiv {formula : Formula ℝ}
    (covered : ∀ i ∈ formula.parameters, i < n) (smooth : formula.Smooth x (List.ofFn q))
    (index : Nat) :
    (formula.derivative index).evaluate x (List.ofFn q) =
      fderiv ℝ (fun p : Fin n → ℝ => formula.evaluate x (List.ofFn p)) q (direction n index) := by
  let start : ℝ := (List.ofFn q)[index]?.getD Scalar.nan
  have line := hasDerivAt_evaluate formula index x (List.ofFn q) (by simpa using covered)
    (smooth.regular index)
  simp only [set_ofFn] at line
  have step : HasDerivAt (fun t : ℝ => q + (t - start) • direction n index) (direction n index)
      start := by
    simpa using (((hasDerivAt_id start).sub_const start).smul_const (direction n index)).const_add q
  have here : q + (start - start) • direction n index = q := by simp
  have total := ((contDiffAt_evaluate smooth).differentiableAt two_ne_zero).hasFDerivAt
  rw [← here] at total
  have along := total.comp_hasDerivAt start step
  rw [here] at along
  exact line.unique along

theorem mixed_derivatives_eq {formula : Formula ℝ}
    (covered : ∀ i ∈ formula.parameters, i < n) (smooth : formula.Smooth x (List.ofFn q))
    (i j : Nat) :
    ((formula.derivative i).derivative j).evaluate x (List.ofFn q) =
      ((formula.derivative j).derivative i).evaluate x (List.ofFn q) := by
  let value : (Fin n → ℝ) → ℝ := fun p => formula.evaluate x (List.ofFn p)
  have twice := contDiffAt_evaluate smooth
  have slopes : DifferentiableAt ℝ (fderiv ℝ value) q :=
    (twice.fderiv_right (by norm_num : (1 : WithTop ℕ∞) + 1 ≤ 2)).differentiableAt one_ne_zero
  -- Both orders are the second derivative of the value, applied to the two directions.
  have second (i j : Nat) : ((formula.derivative i).derivative j).evaluate x (List.ofFn q) =
      fderiv ℝ (fderiv ℝ value) q (direction n j) (direction n i) := by
    have coveredToo := covered_derivative covered i
    have near : (fun p => (formula.derivative i).evaluate x (List.ofFn p)) =ᶠ[𝓝 q]
        fun p => fderiv ℝ value p (direction n i) :=
      (eventually_smooth smooth).mono fun p smooth => evaluate_derivative_eq_fderiv covered smooth i
    rw [evaluate_derivative_eq_fderiv coveredToo (smooth.derivative i) j, near.fderiv_eq]
    rw [(slopes.hasFDerivAt.clm_apply (hasFDerivAt_const (direction n i) q)).fderiv]
    simp
  rw [second i j, second j i]
  exact twice.isSymmSndFDerivAt (by simp) _ _

end Coordinates

/-! ## Iterated partial derivatives -/

noncomputable def partialDerivative (index : Nat) (value : List ℝ → ℝ) (params : List ℝ) : ℝ :=
  deriv (fun t => value (params.set index t)) (params[index]?.getD Scalar.nan)

noncomputable def iteratedPartial (path : List Nat) (value : List ℝ → ℝ) : List ℝ → ℝ :=
  path.foldl (fun slope index => partialDerivative index slope) value

def smoothRegion (formula : Formula ℝ) (x : ℝ) : Set (List ℝ) :=
  {params | (∀ i ∈ formula.parameters, i < params.length) ∧ formula.Smooth x params}

section Regions

variable {formula : Formula ℝ} {x : ℝ}

theorem eventually_mem_smoothRegion {params : List ℝ} (member : params ∈ formula.smoothRegion x)
    (index : Nat) :
    ∀ᶠ t in 𝓝 (params[index]?.getD Scalar.nan), params.set index t ∈ formula.smoothRegion x := by
  obtain ⟨covered, smooth⟩ := member
  let q : Fin params.length → ℝ := params.get
  have listed : List.ofFn q = params := List.ofFn_get params
  let start : ℝ := params[index]?.getD Scalar.nan
  have moves : Filter.Tendsto (fun t => q + (t - start) • direction params.length index) (𝓝 start)
      (𝓝 q) := by
    have continuous : Continuous fun t => q + (t - start) • direction params.length index := by
      fun_prop
    simpa using continuous.tendsto start
  rw [← listed] at smooth
  refine (moves.eventually (eventually_smooth smooth)).mono fun t near => ⟨?_, ?_⟩
  · simpa using covered
  · have moved := set_ofFn q index t
    rw [listed] at moved
    rwa [moved]

theorem smoothRegion_subset_derivative (index : Nat) :
    formula.smoothRegion x ⊆ (formula.derivative index).smoothRegion x :=
  fun _ member => ⟨covered_derivative member.1 index, member.2.derivative index⟩

theorem hasDerivAt_partial {other : Formula ℝ} {value : List ℝ → ℝ}
    (smooth : formula.smoothRegion x ⊆ other.smoothRegion x)
    (values : ∀ params ∈ formula.smoothRegion x, other.evaluate x params = value params)
    {params : List ℝ} (member : params ∈ formula.smoothRegion x) (index : Nat) :
    HasDerivAt (fun t => value (params.set index t)) ((other.derivative index).evaluate x params)
      (params[index]?.getD Scalar.nan) := by
  obtain ⟨covered, smoothHere⟩ := smooth member
  apply (hasDerivAt_evaluate other index x params covered
    (smoothHere.regular index)).congr_of_eventuallyEq
  exact (eventually_mem_smoothRegion member index).mono fun t near => (values _ near).symm

theorem evaluate_derivativeAlong_of_eq {other : Formula ℝ} {value : List ℝ → ℝ} (path : List Nat)
    (smooth : formula.smoothRegion x ⊆ other.smoothRegion x)
    (values : ∀ params ∈ formula.smoothRegion x, other.evaluate x params = value params) :
    formula.smoothRegion x ⊆ (other.derivativeAlong path).smoothRegion x ∧
      ∀ params ∈ formula.smoothRegion x,
        (other.derivativeAlong path).evaluate x params = iteratedPartial path value params := by
  induction path generalizing other value with
  | nil => exact ⟨smooth, values⟩
  | cons index path ih =>
      apply ih (smooth.trans (smoothRegion_subset_derivative index))
      intro params member
      exact (hasDerivAt_partial smooth values member index).deriv.symm

theorem mixed_derivatives_eq_of_mem {params : List ℝ} (member : params ∈ formula.smoothRegion x)
    (i j : Nat) :
    ((formula.derivative i).derivative j).evaluate x params =
      ((formula.derivative j).derivative i).evaluate x params := by
  obtain ⟨covered, smooth⟩ := member
  rw [← List.ofFn_get params] at smooth ⊢
  exact mixed_derivatives_eq covered smooth i j

theorem evaluate_derivativeAlong_perm {path path' : List Nat} (reordered : path.Perm path')
    {params : List ℝ} (member : params ∈ formula.smoothRegion x) :
    (formula.derivativeAlong path).evaluate x params =
      (formula.derivativeAlong path').evaluate x params := by
  induction reordered generalizing formula with
  | nil => rfl
  | cons index reordered ih => exact ih (smoothRegion_subset_derivative index member)
  | swap i j path =>
      have smooth (i j : Nat) :
          formula.smoothRegion x ⊆ ((formula.derivative i).derivative j).smoothRegion x :=
        (smoothRegion_subset_derivative i).trans (smoothRegion_subset_derivative j)
      let value := fun params => ((formula.derivative i).derivative j).evaluate x params
      have one := (evaluate_derivativeAlong_of_eq path (smooth j i) fun params member =>
        show _ = value params from mixed_derivatives_eq_of_mem member j i).2 params member
      have two := (evaluate_derivativeAlong_of_eq path (smooth i j) fun params member =>
        show _ = value params from rfl).2 params member
      exact one.trans two.symm
  | trans first second ihFirst ihSecond => exact (ihFirst member).trans (ihSecond member)

end Regions

/-- At a smooth point every derivative along a path of parameters is smooth, has the iterated partial
derivative of the formula's value as its value, and has the same value along every order of the
path. -/
theorem derivativeAlong_evaluates (formula : Formula ℝ) (x : ℝ) (params : List ℝ)
    (covered : ∀ i ∈ formula.parameters, i < params.length) (smooth : formula.Smooth x params) :
    (∀ path, (∀ i ∈ (formula.derivativeAlong path).parameters, i < params.length) ∧
      (formula.derivativeAlong path).Smooth x params ∧
      (formula.derivativeAlong path).evaluate x params =
        iteratedPartial path (fun p => formula.evaluate x p) params ∧
      ∀ index, HasDerivAt
        (fun t => iteratedPartial path (fun p => formula.evaluate x p) (params.set index t))
        (iteratedPartial (path ++ [index]) (fun p => formula.evaluate x p) params)
        (params[index]?.getD Scalar.nan)) ∧
    ∀ path path', path.Perm path' →
      (formula.derivativeAlong path).evaluate x params =
        (formula.derivativeAlong path').evaluate x params := by
  have member : params ∈ formula.smoothRegion x := ⟨covered, smooth⟩
  have along (path : List Nat) := evaluate_derivativeAlong_of_eq (x := x) path
    (Set.Subset.refl (formula.smoothRegion x)) fun p _ => show _ = formula.evaluate x p from rfl
  refine ⟨fun path => ?_, fun path path' reordered => evaluate_derivativeAlong_perm reordered member⟩
  obtain ⟨smoothAlong, values⟩ := along path
  obtain ⟨coveredAlong, smoothHere⟩ := smoothAlong member
  refine ⟨coveredAlong, smoothHere, values params member, fun index => ?_⟩
  have slope := hasDerivAt_partial smoothAlong values member index
  have next := (along (path ++ [index])).2 params member
  rw [derivativeAlong, List.foldl_concat] at next
  exact slope.congr_deriv next

theorem derivativeAlong_evaluates_negative_base :
    let formula : Formula ℝ :=
      binary .mul (binary .pow (binary .div (param 0) sample) (number 3)) (call .sqrt (param 1))
    (∀ i ∈ formula.parameters, i < 2) ∧ formula.Smooth 2 [-4, 9] ∧
      (formula.derivativeAlong [0, 1]).evaluate 2 [-4, 9] =
        iteratedPartial [0, 1] (fun p => formula.evaluate 2 p) [-4, 9] ∧
      (formula.derivativeAlong [0, 1]).evaluate 2 [-4, 9] =
        (formula.derivativeAlong [1, 0]).evaluate 2 [-4, 9] := by
  intro formula
  have covered : ∀ i ∈ formula.parameters, i < 2 := by decide
  have smooth : formula.Smooth 2 [-4, 9] := by
    refine ⟨⟨⟨trivial, trivial, ?_⟩, trivial, .inr ⟨?_, rfl, 3, ?_⟩⟩, ⟨trivial, ?_⟩, trivial⟩
    · simp [evaluate]
    · simp [evaluate, Operator.apply]
    · simp [evaluate]
    · simp [evaluate, Elementary.Regular]
  obtain ⟨along, reordered⟩ := derivativeAlong_evaluates formula 2 [-4, 9] covered smooth
  exact ⟨covered, smooth, (along [0, 1]).2.2.1, reordered _ _ (.swap 1 0 [])⟩

end Formula

end LeastSquares
