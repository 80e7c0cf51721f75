import LeastSquares.Decimal.Layout

namespace LeastSquares

inductive Termination where
  | gradientTolerance
  /-- The gradient has an entry that is not a number, so there is no direction to go in. -/
  | nonFiniteGradient
  | stepTolerance
  | maxIterations
  deriving DecidableEq

namespace Termination

def isConverged : Termination → Bool
  | gradientTolerance | stepTolerance => true
  | nonFiniteGradient | maxIterations => false

def name : Termination → String
  | gradientTolerance => "gradient_tolerance"
  | nonFiniteGradient => "non_finite_gradient"
  | stepTolerance => "step_tolerance"
  | maxIterations => "max_iterations"

def description : Termination → String
  | gradientTolerance => "Converged: small gradient"
  | nonFiniteGradient => "Terminated: gradient is not finite"
  | stepTolerance => "Converged: negligible step"
  | maxIterations => "Terminated: maximum iterations reached"

end Termination

structure Outcome (α : Type) (m n : Nat) where
  params : Vector α n
  residuals : Vector α m
  cost : α
  iterations : Nat
  termination : Termination

namespace Outcome

def report {α : Type} [ToDecimal α] {m n : Nat} (outcome : Outcome α m n) : String :=
  let params := ", ".intercalate (outcome.params.toList.map Layout.report.text)
  "Optimization Result:\n" ++
    s!"  Termination: {outcome.termination.description}\n" ++
    "  Cost: " ++ Layout.exponential.significant 7 outcome.cost ++ "\n" ++
    s!"  Iterations: {outcome.iterations}\n" ++
    s!"  Parameters: [{params}]\n"

end Outcome

end LeastSquares
