import LeastSquares.Proofs.MachineNumbers
import LeastSquares.Proofs.Model.Residuals
import LeastSquares.Proofs.Solver.Stopping

/-!
# Data that the initial parameters explain

Where the observed values are those of the model, every residual equals zero. The gradient, a sum of
products with residuals, then equals zero as well, unless a partial derivative is not finite: times
zero that makes a value which is not a number. Either way a minimization stops at its first head.
-/

namespace LeastSquares

open Scalar

variable {α : Type} [Scalar α]

/-! ## Columns as data -/

section Columns

variable {count : Nat} {x y : Vector α count}

theorem Dataset.ofColumns_eq_ok (nonempty : 0 < count)
    (samples : ∀ k, isFinite (x.get k) = true) (values : ∀ k, isFinite (y.get k) = true) :
    ∃ data, ofColumns x.toList y.toList = .ok data ∧ data.rows = x.toList.zip y.toList := by
  have rows : x.toList.zip y.toList ≠ [] := by
    rw [← List.length_pos_iff]
    simpa using nonempty
  have usable : ∀ row ∈ x.toList.zip y.toList, isUsable row = true := by
    intro row member
    obtain ⟨left, right⟩ := List.of_mem_zip member
    rw [isUsable, Bool.and_eq_true]
    exact ⟨(forall_mem_toList (P := (isFinite · = true))).mpr samples _ left,
      (forall_mem_toList (P := (isFinite · = true))).mpr values _ right⟩
  rw [ofColumns, if_pos (by simp), ofRows, dif_neg rows, dif_pos usable]
  exact ⟨_, rfl, rfl⟩

theorem Dataset.get_columns {data : Dataset α}
    (zipped : data.rows = x.toList.zip y.toList) :
    data.size = count ∧ ∀ (k : Fin data.size) (k' : Fin count), k.val = k'.val →
      data.x.get k = x.get k' ∧ data.y.get k = y.get k' := by
  refine ⟨by simp [size, zipped], fun k k' same => ?_⟩
  simp [Dataset.x, Dataset.y, get_eq_getElem, zipped, same]

theorem Model.length_of_eval {model : Model α} {params : List α}
    (explained : model.eval x params = .ok y) : params.length = model.arity := by
  by_contra differs
  rw [Model.eval, if_neg differs] at explained
  cases explained

end Columns

section Stopped

variable {problem : Problem α} {settings : Settings α}

theorem minimize_stopped_at_start {start : Vector α problem.parameterCount}
    {linearization : Linearization α problem.residualCount problem.parameterCount}
    (linearized : Linearization.of problem start = .ok linearization) {reason : Termination}
    (stops : ∀ head : Head problem, head.linearization = linearization →
      head.stop? settings = some reason) :
    minimize problem settings start.toList = .ok
      { params := start
        residuals := linearization.residuals
        cost := linearization.cost
        iterations := 0
        termination := reason } := by
  have visits : Visits problem settings start.toList []
      { search := .start start (initialDamping linearization.hessian settings.initialDampingScale)
        linearization } :=
    ⟨start, _, rfl, Except.map_eq_ok.mpr ⟨_, linearized, rfl⟩, .here _, Nat.zero_le _⟩
  rw [visits.minimize_eq]
  exact Head.run_stopped (stops _ rfl) _

end Stopped

variable [ZeroLaws α]

/-! ## Sums of zeros -/

section Sums

variable {n : Nat} {v w : Vector α n}

theorem SumsTo.products_zero {total : α} (sums : SumsTo (products v w) total)
    (finite : ∀ i, isFinite (v.get i) = true) (zeros : ∀ i, (w.get i == ((0 : Nat) : α)) = true) :
    (total == ((0 : Nat) : α)) = true :=
  sums.closed (P := fun a => (a == ((0 : Nat) : α)) = true) ZeroLaws.zero_beq_zero
    ZeroLaws.add_zero (forall_mem_products.mpr fun i => ZeroLaws.mul_zero (finite i) (zeros i))

theorem halfSquare_zeros (zeros : ∀ i, (v.get i == ((0 : Nat) : α)) = true) :
    (Problem.halfSquare v == ((0 : Nat) : α)) = true :=
  ZeroLaws.half_zero ((sumsTo_dot v v).products_zero (fun i => ZeroLaws.isFinite_zero (zeros i)) zeros)

end Sums

/-! ## Gradients -/

section Gradients

variable {m n : Nat} {linearization : Linearization α m n}

theorem Linearization.gradient_zeros
    (zeros : ∀ k, (linearization.residuals.get k == ((0 : Nat) : α)) = true)
    (finite : ∀ k i, isFinite (linearization.jacobian.entry k i) = true) (i : Fin n) :
    (linearization.gradient.get i == ((0 : Nat) : α)) = true := by
  rw [linearization.gradient_eq]
  refine (sumsTo_transposeApply _ _ i).products_zero (fun k => ?_) zeros
  rw [DenseMatrix.get_transpose]
  exact finite k i

theorem Linearization.isNaN_gradient_of_not_finite
    (zeros : ∀ k, (linearization.residuals.get k == ((0 : Nat) : α)) = true) {k : Fin m} {i : Fin n}
    (infinite : isFinite (linearization.jacobian.entry k i) = false) :
    isNaN (linearization.gradient.get i) = true := by
  rw [linearization.gradient_eq]
  refine (sumsTo_transposeApply _ _ i).isNaN_of_product k (ZeroLaws.isNaN_mul_zero ?_ (zeros k))
  rw [DenseMatrix.get_transpose]
  exact infinite

end Gradients

/-! ## The first head -/

section Start

variable {problem : Problem α} {settings : Settings α}

theorem Head.stop?_of_finite {head : Head problem}
    (zeros : ∀ k, (head.linearization.residuals.get k == ((0 : Nat) : α)) = true)
    (finite : ∀ k i, isFinite (head.linearization.jacobian.entry k i) = true)
    (positive : ((0 : Nat) : α) < settings.gradientTolerance) :
    head.stop? settings = some .gradientTolerance := by
  have flat := Linearization.gradient_zeros zeros finite
  obtain ⟨number, below⟩ := infNorm_of_numbers fun i =>
    ZeroLaws.isNaN_of_isFinite (ZeroLaws.isFinite_zero (flat i))
  exact stop?_eq_gradientTolerance.mpr
    ⟨number, (below _).mpr ⟨positive, fun i => ZeroLaws.abs_zero_lt (flat i) positive⟩⟩

theorem Head.stop?_of_not_finite {head : Head problem}
    (zeros : ∀ k, (head.linearization.residuals.get k == ((0 : Nat) : α)) = true)
    {k : Fin problem.residualCount} {i : Fin problem.parameterCount}
    (infinite : isFinite (head.linearization.jacobian.entry k i) = false) :
    head.stop? settings = some .nonFiniteGradient :=
  stop?_eq_nonFiniteGradient.mpr
    (isNaN_infNorm i (Linearization.isNaN_gradient_of_not_finite zeros infinite))

theorem minimize_of_zeros {start : Vector α problem.parameterCount}
    {linearization : Linearization α problem.residualCount problem.parameterCount}
    (linearized : Linearization.of problem start = .ok linearization)
    (zeros : ∀ k, (linearization.residuals.get k == ((0 : Nat) : α)) = true)
    (positive : ((0 : Nat) : α) < settings.gradientTolerance) :
    ∃ outcome, minimize problem settings start.toList = .ok outcome ∧ outcome.iterations = 0 ∧
      outcome.params = start ∧ (∀ k, (outcome.residuals.get k == ((0 : Nat) : α)) = true) ∧
      (outcome.cost == ((0 : Nat) : α)) = true ∧
      ((∀ k i, isFinite (linearization.jacobian.entry k i) = true) →
        outcome.termination = .gradientTolerance) ∧
      ((∃ k i, isFinite (linearization.jacobian.entry k i) = false) →
        outcome.termination = .nonFiniteGradient) := by
  have cost := halfSquare_zeros zeros
  by_cases finite : ∀ k i, isFinite (linearization.jacobian.entry k i) = true
  · have stops (head : Head problem) (found : head.linearization = linearization) :
        head.stop? settings = some .gradientTolerance :=
      Head.stop?_of_finite (by rwa [found]) (by rwa [found]) positive
    refine ⟨_, minimize_stopped_at_start linearized stops, rfl, rfl, zeros, cost, fun _ => rfl, ?_⟩
    rintro ⟨k, i, infinite⟩
    rw [finite k i] at infinite
    cases infinite
  · obtain ⟨k, i, infinite⟩ : ∃ k i, isFinite (linearization.jacobian.entry k i) = false := by
      simpa using finite
    have stops (head : Head problem) (found : head.linearization = linearization) :
        head.stop? settings = some .nonFiniteGradient :=
      Head.stop?_of_not_finite (by rwa [found]) (by rwa [found])
    exact ⟨_, minimize_stopped_at_start linearized stops, rfl, rfl, zeros, cost,
      fun all => absurd all finite, fun _ => rfl⟩

end Start

/-- The parameters that the data were computed with are returned at once. -/
theorem minimize_exact_data (model : Model α) (settings : Settings α) {count : Nat}
    (x y : Vector α count) (truth : List α) (nonempty : 0 < count)
    (samples : ∀ k, isFinite (x.get k) = true) (values : ∀ k, isFinite (y.get k) = true)
    (explained : model.eval x truth = .ok y)
    (positive : ((0 : Nat) : α) < settings.gradientTolerance) :
    ∃ data partials outcome, Dataset.ofColumns x.toList y.toList = .ok data ∧
      model.jacobian x truth = .ok partials ∧
      minimize (.ofModel model data) settings truth = .ok outcome ∧
      outcome.iterations = 0 ∧ outcome.params.toList = truth ∧
      (∀ k, (outcome.residuals.get k == ((0 : Nat) : α)) = true) ∧
      (outcome.cost == ((0 : Nat) : α)) = true ∧
      ((∀ k i, isFinite (partials.entry k i) = true) →
        outcome.termination = .gradientTolerance) ∧
      ((∃ k i, isFinite (partials.entry k i) = false) →
        outcome.termination = .nonFiniteGradient) := by
  obtain ⟨data, accepted, zipped⟩ := Dataset.ofColumns_eq_ok nonempty samples values
  have fits := Model.length_of_eval explained
  obtain ⟨start, rfl⟩ : ∃ start : Vector α model.arity, start.toList = truth :=
    ⟨⟨truth.toArray, by simpa using fits⟩, rfl⟩
  obtain rfl := Except.ok.inj ((model.eval_eq x fits).symm.trans explained)
  obtain ⟨equallyMany, columns⟩ := Dataset.get_columns zipped
  obtain ⟨linearization, linearized, same, entries⟩ := model.linearized_ofModel data start
  have zeros (k : Fin data.size) : (linearization.residuals.get k == ((0 : Nat) : α)) = true := by
    obtain ⟨sample, value⟩ := columns k (k.cast equallyMany) rfl
    have finite := values (k.cast equallyMany)
    rw [Formula.get_column] at value finite
    rw [same, model.get_residuals, sample, value]
    exact ZeroLaws.sub_self finite
  have partials (k : Fin data.size) (i : Fin model.arity) :
      isFinite (linearization.jacobian.entry k i) =
        isFinite ((DenseMatrix.transpose (model.derivatives.map fun derivative =>
          derivative.column x start.toList)).entry (k.cast equallyMany) i) := by
    rw [entries, ZeroLaws.isFinite_neg, (columns k (k.cast equallyMany) rfl).1, model.entry_partials]
  obtain ⟨outcome, ended, iterations, params, residuals, cost, finite, infinite⟩ :=
    minimize_of_zeros linearized zeros positive
  refine ⟨data, _, outcome, accepted, model.jacobian_eq x fits, ended, iterations,
    congrArg Vector.toList params, residuals, cost, fun all => finite fun k i => ?_, ?_⟩
  · exact (partials k i).trans (all (k.cast equallyMany) i)
  · rintro ⟨k, i, found⟩
    exact infinite ⟨k.cast equallyMany.symm, i, (partials _ i).trans found⟩

def shiftedRoot : Model Float where
  source := "sqrt(param0 * x) + param1 * param2"
  formula := .binary .add (.call .sqrt (.binary .mul (.param 0) .sample))
    (.binary .mul (.param 1) (.param 2))
  arity := 3
  arity_ge := by decide
  arity_le := by decide
  parameters_eq := by decide

theorem minimize_exact_data_root :
    let reached (x y : List Float) (reason : Termination) := ∃ data outcome,
      Dataset.ofColumns x y = .ok data ∧
        minimize (.ofModel shiftedRoot data) .standard [4.0, 0.5, 2.0] = .ok outcome ∧
        outcome.iterations = 0 ∧ outcome.params.toList = [4.0, 0.5, 2.0] ∧
        outcome.termination = reason
    reached [1.0, 4.0] [3.0, 5.0] .gradientTolerance ∧
      reached [1.0, 0.0] [3.0, 1.0] .nonFiniteGradient := by
  intro reached
  constructor
  · obtain ⟨data, _, outcome, accepted, slopes, ended, iterations, params, -, -, finite, -⟩ :=
      minimize_exact_data shiftedRoot .standard #v[1.0, 4.0] #v[3.0, 5.0] [4.0, 0.5, 2.0] (by decide)
        (by decide +kernel) (by decide +kernel)
        ((shiftedRoot.eval_eq _ rfl).trans (congrArg Except.ok (by decide +kernel)))
        (by decide +kernel)
    obtain rfl := Except.ok.inj ((shiftedRoot.jacobian_eq _ rfl).symm.trans slopes)
    exact ⟨data, outcome, accepted, ended, iterations, params, finite (by decide +kernel)⟩
  · obtain ⟨data, _, outcome, accepted, slopes, ended, iterations, params, -, -, -, infinite⟩ :=
      minimize_exact_data shiftedRoot .standard #v[1.0, 0.0] #v[3.0, 1.0] [4.0, 0.5, 2.0] (by decide)
        (by decide +kernel) (by decide +kernel)
        ((shiftedRoot.eval_eq _ rfl).trans (congrArg Except.ok (by decide +kernel)))
        (by decide +kernel)
    obtain rfl := Except.ok.inj ((shiftedRoot.jacobian_eq _ rfl).symm.trans slopes)
    exact ⟨data, outcome, accepted, ended, iterations, params, infinite (by decide +kernel)⟩

end LeastSquares
