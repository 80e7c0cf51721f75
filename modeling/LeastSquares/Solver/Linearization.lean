import LeastSquares.Problem

namespace LeastSquares

structure Linearization (α : Type) [Scalar α] (m n : Nat) where
  residuals : Vector α m
  jacobian : DenseMatrix α m n
  /-- The normal matrix, the Jacobian's transpose times itself. -/
  hessian : DenseMatrix α n n := jacobian.gram
  hessian_eq : hessian = jacobian.gram := by rfl
  gradient : Vector α n := jacobian.transposeApply residuals
  gradient_eq : gradient = jacobian.transposeApply residuals := by rfl

namespace Linearization

variable {α : Type} [Scalar α]

def withResiduals (problem : Problem α) (params : Vector α problem.parameterCount)
    (residuals : Vector α problem.residualCount) :
    Except (Error α) (Linearization α problem.residualCount problem.parameterCount) :=
  (problem.jacobian params).map fun jacobian => { residuals, jacobian }

def of (problem : Problem α) (params : Vector α problem.parameterCount) :
    Except (Error α) (Linearization α problem.residualCount problem.parameterCount) :=
  match problem.residuals params with
  | .error error => .error error
  | .ok residuals => withResiduals problem params residuals

variable {m n : Nat} (linearization : Linearization α m n)

def sumOfSquares : α :=
  dot linearization.residuals linearization.residuals

def cost : α :=
  Problem.halfSquare linearization.residuals

def gradientNorm : α :=
  infNorm linearization.gradient

end Linearization

end LeastSquares
