namespace LeastSquares

inductive Tie where
  | toEven
  | away
  deriving DecidableEq

/-- A decimal form. `finite` stands for `± coefficient · 10 ^ exponent`. -/
inductive Decimal where
  | nan
  | infinity (negative : Bool)
  | finite (negative : Bool) (coefficient : Nat) (exponent : Int)
  deriving DecidableEq

namespace Decimal

def stripZeros (coefficient : Nat) (exponent : Int) : Nat × Int :=
  if coefficient ≠ 0 ∧ coefficient % 10 = 0 then stripZeros (coefficient / 10) (exponent + 1)
  else (coefficient, exponent)
termination_by coefficient
decreasing_by omega

def roundQuotient (tie : Tie) (numerator denominator : Nat) : Nat :=
  let quotient := numerator / denominator
  let twice := 2 * (numerator % denominator)
  if twice < denominator then quotient
  else if denominator < twice then quotient + 1
  else match tie with
    | .toEven => quotient + quotient % 2
    | .away => quotient + 1

end Decimal

class ToDecimal (α : Type) where
  /-- The fewest digits that tell the number apart from its neighbours. -/
  shortest : Tie → α → Decimal
  /-- The number rounded to so many significant digits, a half going to the even neighbour. -/
  rounded (digits : Nat) : α → Decimal

end LeastSquares
