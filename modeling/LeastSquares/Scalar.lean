/-!
# Numbers of a model

`Scalar` lists the operations that formulas and the solver use and no law, so one definition serves
machine numbers and the real line alike. The comparisons are those of the numbers themselves: with
machine numbers a not-a-number is equal to nothing, not even to itself.
-/

namespace LeastSquares

class Scalar (α : Type) extends Add α, Sub α, Mul α, Div α, Neg α, NatCast α, LT α, LE α,
    BEq α where
  decidableLT : DecidableLT α
  decidableLE : DecidableLE α
  isNaN : α → Bool
  isFinite : α → Bool
  nan : α
  infinity : α
  pi : α
  e : α
  ln10 : α
  /-- The scalar nearest to `mantissa · 10 ^ exponent`. -/
  ofDecimal (mantissa : Nat) (exponent : Int) : α
  abs : α → α
  sqrt : α → α
  exp : α → α
  log : α → α
  log10 : α → α
  sin : α → α
  cos : α → α
  tan : α → α
  pow : α → α → α

namespace Scalar

variable {α : Type} [Scalar α]

instance : DecidableLT α := decidableLT

instance : DecidableLE α := decidableLE

/-- The larger of two scalars. A not-a-number gives way to the other operand. -/
def larger (a b : α) : α :=
  if isNaN a then b else if isNaN b then a else if a < b then b else a

def smaller (a b : α) : α :=
  if isNaN a then b else if isNaN b then a else if b < a then b else a

/-- The sum from left to right. It starts from negative zero, the one start that leaves every
single addend as it is: positive zero would turn a negative zero into a positive one. -/
def sum (addends : List α) : α :=
  addends.foldl (· + ·) (-((0 : Nat) : α))

end Scalar

/-- Double-precision numbers. A decimal beyond the largest double is infinite. The two shortcuts
of `ofDecimal` keep the powers of ten within the range where they can matter: a positive mantissa
times a power above the 308th overflows, and `2 ^ (-1075)` and everything below it rounds to
zero. -/
instance : Scalar Float where
  natCast := Float.ofNat
  decidableLT := inferInstance
  decidableLE := inferInstance
  isNaN := Float.isNaN
  isFinite := Float.isFinite
  nan := 0.0 / 0.0
  infinity := 1.0 / 0.0
  pi := 3.141592653589793
  e := 2.718281828459045
  ln10 := 2.302585092994046
  ofDecimal mantissa exponent :=
    if mantissa = 0 then 0.0
    else if 308 < exponent then 1.0 / 0.0
    else if 3 * exponent + mantissa.log2 + 1 < -1075 then 0.0
    else Float.ofScientific mantissa (exponent < 0) exponent.natAbs
  abs := Float.abs
  sqrt := Float.sqrt
  exp := Float.exp
  log := Float.log
  log10 := Float.log10
  sin := Float.sin
  cos := Float.cos
  tan := Float.tan
  pow := Float.pow

end LeastSquares
