import LeastSquares.Formula.Basic

/-!
# Symbolic differentiation

`Formula.derivative` applies the rules of calculus node by node. What it builds goes through
constructors that fold constants and drop neutral operands, so derivatives stay small; folding
changes no value where the unfolded formula is defined.
-/

namespace LeastSquares.Formula

variable {α : Type}

def asNumber? : Formula α → Option α
  | number value => some value
  | _ => none

variable [Scalar α]

def whole (n : Nat) : Formula α :=
  number (n : α)

def isZero (formula : Formula α) : Bool :=
  match formula.asNumber? with
  | some value => value == ((0 : Nat) : α)
  | none => false

def isOne (formula : Formula α) : Bool :=
  match formula.asNumber? with
  | some value => value == ((1 : Nat) : α)
  | none => false

def isMinusOne (formula : Formula α) : Bool :=
  match formula.asNumber? with
  | some value => value == -((1 : Nat) : α)
  | none => false

def foldNeg : Formula α → Formula α
  | number value => number (-value)
  | neg operand => operand
  | formula => neg formula

def foldAdd (left right : Formula α) : Formula α :=
  match left.asNumber?, right.asNumber? with
  | some a, some b => number (a + b)
  | _, _ =>
    if left.isZero then right
    else if right.isZero then left
    else match right with
      | neg operand => binary .sub left operand
      | _ => binary .add left right

def foldSub (left right : Formula α) : Formula α :=
  match left.asNumber?, right.asNumber? with
  | some a, some b => number (a - b)
  | _, _ =>
    if left.isZero then right.foldNeg
    else if right.isZero then left
    else binary .sub left right

/-- The product of two formulas, neither a zero nor a unit: signs move outwards and cancel. -/
def signedProduct : Formula α → Formula α → Formula α
  | neg a, neg b => binary .mul a b
  | neg a, b => neg (binary .mul a b)
  | a, neg b => neg (binary .mul a b)
  | a, b => binary .mul a b

def foldMul (left right : Formula α) : Formula α :=
  match left.asNumber?, right.asNumber? with
  | some a, some b => number (a * b)
  | _, _ =>
    if left.isZero || right.isZero then whole 0
    else if left.isOne then right
    else if right.isOne then left
    else if left.isMinusOne then right.foldNeg
    else if right.isMinusOne then left.foldNeg
    else signedProduct left right

/-- The quotient of two formulas that do not fold: a sign of the dividend moves outwards. -/
def signedQuotient : Formula α → Formula α → Formula α
  | neg a, b => neg (binary .div a b)
  | a, b => binary .div a b

/-- The quotient. A number is divided by a number other than zero at once; apart from that a zero
dividend makes it zero. -/
def foldDiv (left right : Formula α) : Formula α :=
  let unfolded :=
    if left.isZero then whole 0 else if right.isOne then left else signedQuotient left right
  match left.asNumber?, right.asNumber? with
  | some a, some b => if b == ((0 : Nat) : α) then unfolded else number (a / b)
  | _, _ => unfolded

def foldPow (base exponent : Formula α) : Formula α :=
  match base.asNumber?, exponent.asNumber? with
  | some a, some b => number (Scalar.pow a b)
  | _, _ =>
    if exponent.isZero then whole 1
    else if exponent.isOne then base
    else binary .pow base exponent

def foldCall (f : Elementary) (argument : Formula α) : Formula α :=
  match argument.asNumber? with
  | some value => number (f.apply value)
  | none => call f argument

def outerDerivative (f : Elementary) (argument : Formula α) : Formula α :=
  match f with
  | .exp => foldCall .exp argument
  | .log => foldDiv (whole 1) argument
  | .log10 => foldDiv (whole 1) (foldMul argument (number Scalar.ln10))
  | .sin => foldCall .cos argument
  | .cos => (foldCall .sin argument).foldNeg
  | .tan => foldDiv (whole 1) (foldPow (foldCall .cos argument) (whole 2))
  | .sqrt => foldDiv (whole 1) (foldMul (whole 2) (foldCall .sqrt argument))

/-- The derivative of `u ^ v`, from the derivatives of `u` and `v` and from which of the two
depend on the parameter. -/
def powerDerivative (u v du dv : Formula α) (baseVaries exponentVaries : Bool) : Formula α :=
  match baseVaries, exponentVaries with
  | false, false => whole 0
  | true, false => foldMul (foldMul v (foldPow u (foldSub v (whole 1)))) du
  | false, true => foldMul (foldMul (foldPow u v) (foldCall .log u)) dv
  | true, true =>
    foldMul (foldPow u v) (foldAdd (foldMul dv (foldCall .log u)) (foldDiv (foldMul v du) u))

def derivative (index : Nat) : Formula α → Formula α
  | number _ | sample => whole 0
  | param i => whole (if i = index then 1 else 0)
  | neg operand => (operand.derivative index).foldNeg
  | binary .add u v => foldAdd (u.derivative index) (v.derivative index)
  | binary .sub u v => foldSub (u.derivative index) (v.derivative index)
  | binary .mul u v => foldAdd (foldMul (u.derivative index) v) (foldMul u (v.derivative index))
  | binary .div u v =>
    if v.dependsOn index then
      foldDiv (foldSub (foldMul (u.derivative index) v) (foldMul u (v.derivative index)))
        (foldPow v (whole 2))
    else foldDiv (u.derivative index) v
  | binary .pow u v =>
    powerDerivative u v (u.derivative index) (v.derivative index) (u.dependsOn index)
      (v.dependsOn index)
  | call f argument =>
    let inner := argument.derivative index
    if inner.isZero then whole 0 else foldMul (outerDerivative f argument) inner

def derivativeAlong (path : List Nat) (formula : Formula α) : Formula α :=
  path.foldl (fun d index => d.derivative index) formula

end LeastSquares.Formula
