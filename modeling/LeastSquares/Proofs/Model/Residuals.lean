import LeastSquares.Proofs.Linear.Matrices
import LeastSquares.Proofs.Model.Columns
import LeastSquares.Proofs.Solver.Freshness

namespace LeastSquares.Model

variable {α : Type} [Scalar α] (model : Model α) (data : Dataset α)

def residuals (params : Vector α model.arity) : Vector α data.size :=
  Vector.zipWith (· - ·) data.y (model.formula.column data.x params.toList)

theorem entry_partials {count : Nat} (samples : Vector α count) (params : List α) (k : Fin count)
    (i : Fin model.arity) :
    (DenseMatrix.transpose (model.derivatives.map fun derivative =>
        derivative.column samples params)).entry k i =
      (model.derivatives.get i).evaluate (samples.get k) params := by
  rw [DenseMatrix.entry_transpose, DenseMatrix.entry, Vector.get_map, Formula.get_column]

variable (params : Vector α model.arity)

theorem residuals_ofModel :
    (Problem.ofModel model data).residuals params = .ok (model.residuals data params) :=
  congrArg (Except.map fun predicted => Vector.zipWith (· - ·) data.y predicted)
    (model.eval_eq data.x params.length_toList)

theorem jacobian_ofModel :
    (Problem.ofModel model data).jacobian params =
      .ok (DenseMatrix.neg (DenseMatrix.transpose
        (model.derivatives.map fun derivative => derivative.column data.x params.toList))) :=
  congrArg (Except.map DenseMatrix.neg) (model.jacobian_eq data.x params.length_toList)

theorem cost_ofModel :
    (Problem.ofModel model data).cost params =
      .ok (Problem.halfSquare (model.residuals data params)) :=
  Problem.cost_eq_ok (model.residuals_ofModel data params)

theorem get_residuals (k : Fin data.size) :
    (model.residuals data params).get k =
      data.y.get k - model.formula.evaluate (data.x.get k) params.toList := by
  rw [residuals, get_zipWith, Formula.get_column]

theorem linearized_ofModel : ∃ linearization : Linearization α data.size model.arity,
    Linearization.of (Problem.ofModel model data) params = .ok linearization ∧
      linearization.residuals = model.residuals data params ∧
      ∀ k i, linearization.jacobian.entry k i =
        -((model.derivatives.get i).evaluate (data.x.get k) params.toList) := by
  -- Stated at the sizes of the data and the model, to which those of the problem only unfold.
  have columns (k : Fin data.size) (i : Fin model.arity) :
      (DenseMatrix.neg (DenseMatrix.transpose
        (model.derivatives.map fun d => d.column data.x params.toList))).entry k i =
        -((model.derivatives.get i).evaluate (data.x.get k) params.toList) := by
    rw [DenseMatrix.entry_neg, entry_partials]
  exact ⟨_, Linearization.of_eq_ok.mpr ⟨_, model.residuals_ofModel data params,
    Except.map_eq_ok.mpr ⟨_, model.jacobian_ofModel data params, rfl⟩⟩, rfl, columns⟩

end LeastSquares.Model
