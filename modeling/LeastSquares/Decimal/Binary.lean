import LeastSquares.Decimal.Basic

/-!
# The decimal digits of machine numbers

The digits are chosen by exact arithmetic. A finite number other than zero stands for all the reals
that round to it. The shortest decimal among these is found by trying one digit, two digits and so
on: on each grid only the two neighbours of the number can be nearest to it. So the digits found
read back as the number they came from, and no shorter ones do.
-/

namespace LeastSquares

/-- The size of a finite machine number, `significand · 2 ^ exponent`. -/
structure Binary where
  significand : Nat
  exponent : Int
  /-- The gap to the next number below is half the gap to the next number above. -/
  narrowBelow : Bool

namespace Binary

def ofBits (bits : UInt64) : Binary :=
  let biased := ((bits >>> 52) &&& 0x7FF).toNat
  let fraction := (bits &&& 0xFFFFFFFFFFFFF).toNat
  if biased = 0 then ⟨fraction, -1074, false⟩
  else ⟨0x10000000000000 + fraction, biased - 1075, fraction = 0 ∧ 1 < biased⟩

def toRat (x : Binary) : Rat :=
  x.significand * (2 : Rat) ^ x.exponent

/-- Whether a number rounds to `x`: it lies no further from `x` than halfway to the neighbours,
where an end itself rounds to the even significand. -/
def readsBack (x : Binary) (value : Rat) : Bool :=
  let quarter := (2 : Rat) ^ (x.exponent - 2)
  let lower := (4 * x.significand - if x.narrowBelow then 1 else 2 : Rat) * quarter
  let upper := (4 * x.significand + 2 : Rat) * quarter
  (lower < value ∧ value < upper) ∨ (x.significand % 2 = 0 ∧ (value = lower ∨ value = upper))

/-- The least `k` with `value < 10 ^ k`, for a positive value. -/
def magnitude (value : Rat) : Int :=
  if 1 ≤ value then (Nat.toDigits 10 value.floor.toNat).length
  else 1 - (Nat.toDigits 10 ((1 / value).ceil.toNat - 1)).length

/-- The grid point nearest to `x` with so many digits, if it rounds to `x`. -/
def onGrid? (tie : Tie) (x : Binary) (count : Nat) : Option (Nat × Int) :=
  let unit := magnitude x.toRat - count
  let scaled := x.toRat / (10 : Rat) ^ unit
  let below := scaled.floor.toNat
  let fits (candidate : Nat) : Bool := x.readsBack (candidate * (10 : Rat) ^ unit)
  let gap := scaled - (below : Rat)
  let preferAbove := 1 / 2 < gap ∨ (gap = 1 / 2 ∧ (tie = .away ∨ below % 2 = 1))
  let first := if preferAbove then below + 1 else below
  let second := if preferAbove then below else below + 1
  if fits first then some (first, unit)
  else if fits second then some (second, unit)
  else none

def toDigits (x : Binary) (count : Nat) : Nat × Int :=
  let unit := magnitude x.toRat - count
  let scaled := x.toRat / (10 : Rat) ^ unit
  (Decimal.roundQuotient .toEven scaled.num.toNat scaled.den, unit)

/-- The fewest digits that read back as `x`. Seventeen always do. -/
def shortestDigits (tie : Tie) (x : Binary) : Nat × Int :=
  ((List.range' 1 17).findSome? (onGrid? tie x)).getD (x.toDigits 17)

end Binary

private def decimalOf (digitsOf : Binary → Nat × Int) (value : Float) : Decimal :=
  let bits := value.toBits
  let negative : Bool := bits >>> 63 = 1
  if value.isNaN then .nan
  else if value.isInf then .infinity negative
  else
    let size := Binary.ofBits bits
    if size.significand = 0 then .finite negative 0 0
    else
      let (coefficient, exponent) := digitsOf size
      let (coefficient, exponent) := Decimal.stripZeros coefficient exponent
      .finite negative coefficient exponent

instance : ToDecimal Float where
  shortest tie := decimalOf (Binary.shortestDigits tie)
  rounded count := decimalOf (Binary.toDigits · count)

end LeastSquares
