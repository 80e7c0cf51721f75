import LeastSquares.Error
import LeastSquares.Linear.Elimination

namespace LeastSquares

variable {α : Type} [Scalar α] {n : Nat}

/-- The solution `h` of `(A + damping) h = -g`. -/
def dampedStep (hessian : DenseMatrix α n n) (gradient : Vector α n) (damping : α)
    (iteration : Nat) : Except (Error α) (Vector α n) :=
  match (hessian.addDiagonal damping).solveSymmetric? (gradient.map (- ·)) with
  | some step => .ok step
  | none => .error (.singularSystem iteration damping)

/-- The decrease of the cost that the linear model promises for a step. -/
def predictedReduction (step gradient : Vector α n) (damping : α) : α :=
  dot step (Vector.zipWith (fun h g => h * damping - g) step gradient) / ((2 : Nat) : α)

end LeastSquares
