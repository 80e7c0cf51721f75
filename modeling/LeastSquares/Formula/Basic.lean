import LeastSquares.Scalar

namespace LeastSquares

inductive Elementary where
  | exp | log | log10 | sin | cos | tan | sqrt
  deriving DecidableEq

namespace Elementary

def name : Elementary → String
  | exp => "exp"
  | log => "log"
  | log10 => "log10"
  | sin => "sin"
  | cos => "cos"
  | tan => "tan"
  | sqrt => "sqrt"

def apply {α : Type} [Scalar α] : Elementary → α → α
  | exp => Scalar.exp
  | log => Scalar.log
  | log10 => Scalar.log10
  | sin => Scalar.sin
  | cos => Scalar.cos
  | tan => Scalar.tan
  | sqrt => Scalar.sqrt

end Elementary

inductive Operator where
  | add | sub | mul | div | pow
  deriving DecidableEq

namespace Operator

def symbol : Operator → Char
  | add => '+'
  | sub => '-'
  | mul => '*'
  | div => '/'
  | pow => '^'

def apply {α : Type} [Scalar α] : Operator → α → α → α
  | add => (· + ·)
  | sub => (· - ·)
  | mul => (· * ·)
  | div => (· / ·)
  | pow => Scalar.pow

end Operator

inductive Formula (α : Type) where
  | number (value : α)
  | sample
  | param (index : Nat)
  | neg (operand : Formula α)
  | binary (op : Operator) (left right : Formula α)
  | call (f : Elementary) (argument : Formula α)
  deriving BEq

namespace Formula

variable {α : Type}

def size : Formula α → Nat
  | number _ | sample | param _ => 1
  | neg operand => 1 + operand.size
  | binary _ left right => 1 + left.size + right.size
  | call _ argument => 1 + argument.size

def height : Formula α → Nat
  | number _ | sample | param _ => 1
  | neg operand => operand.height + 1
  | binary _ left right => max left.height right.height + 1
  | call _ argument => argument.height + 1

def insertIndex (index : Nat) : List Nat → List Nat
  | [] => [index]
  | head :: tail =>
    if index < head then index :: head :: tail
    else if index = head then head :: tail
    else head :: insertIndex index tail

def addParameters : Formula α → List Nat → List Nat
  | number _, known | sample, known => known
  | param index, known => insertIndex index known
  | neg operand, known => operand.addParameters known
  | binary _ left right, known => right.addParameters (left.addParameters known)
  | call _ argument, known => argument.addParameters known

def parameters (formula : Formula α) : List Nat :=
  formula.addParameters []

def dependsOn (index : Nat) : Formula α → Bool
  | number _ | sample => false
  | param i => i = index
  | neg operand => operand.dependsOn index
  | binary _ left right => left.dependsOn index || right.dependsOn index
  | call _ argument => argument.dependsOn index

/-- The value at the sample `x`. A parameter beyond the list reads as not-a-number. -/
def evaluate [Scalar α] (x : α) (params : List α) : Formula α → α
  | number value => value
  | sample => x
  | param index => params[index]?.getD Scalar.nan
  | neg operand => -operand.evaluate x params
  | binary op left right => op.apply (left.evaluate x params) (right.evaluate x params)
  | call f argument => f.apply (argument.evaluate x params)

end Formula

end LeastSquares
