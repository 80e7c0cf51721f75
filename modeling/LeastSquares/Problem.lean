import LeastSquares.Dataset
import LeastSquares.Model

namespace LeastSquares

structure Problem (α : Type) where
  parameterCount : Nat
  residualCount : Nat
  residuals : Vector α parameterCount → Except (Error α) (Vector α residualCount)
  /-- A row for each residual, a column for each parameter. -/
  jacobian : Vector α parameterCount → Except (Error α) (DenseMatrix α residualCount parameterCount)

namespace Problem

variable {α : Type} [Scalar α]

def halfSquare {n : Nat} (residuals : Vector α n) : α :=
  dot residuals residuals / ((2 : Nat) : α)

def cost (problem : Problem α) (params : Vector α problem.parameterCount) : Except (Error α) α :=
  (problem.residuals params).map halfSquare

def ofModel (model : Model α) (data : Dataset α) : Problem α where
  parameterCount := model.arity
  residualCount := data.size
  residuals params :=
    (model.eval data.x params.toList).map fun predicted => Vector.zipWith (· - ·) data.y predicted
  jacobian params := (model.jacobian data.x params.toList).map DenseMatrix.neg

/-- The problem of solving `a * p = b` for `p`, its residuals computed term by term. -/
def linear {m n : Nat} (a : DenseMatrix α m n) (b : Vector α m) : Problem α where
  parameterCount := n
  residualCount := m
  residuals params :=
    .ok <| Vector.zipWith
      (fun row right =>
        (Vector.zipWith (· * ·) row params).foldl (fun rest term => rest - term) right)
      a b
  jacobian _ := .ok a.neg

end Problem

end LeastSquares
