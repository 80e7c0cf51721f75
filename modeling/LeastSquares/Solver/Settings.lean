import LeastSquares.Scalar

namespace LeastSquares

structure Settings (α : Type) where
  maxIterations : Nat
  gradientTolerance : α
  stepTolerance : α
  /-- The initial damping, relative to the largest diagonal entry of the normal matrix. -/
  initialDampingScale : α
  deriving BEq

namespace Settings

variable {α : Type} [Scalar α]

def standard : Settings α where
  maxIterations := 200
  gradientTolerance := Scalar.ofDecimal 1 (-15)
  stepTolerance := Scalar.ofDecimal 1 (-20)
  initialDampingScale := Scalar.ofDecimal 1 (-3)

end Settings

end LeastSquares
