import LeastSquares.Formula.Basic
import LeastSquares.Decimal.Layout

namespace LeastSquares.Formula

variable {α : Type} [Scalar α] [ToDecimal α]

/-- The text of a number. The two named constants are called by name, and negative numbers stand in
parentheses. -/
def numberText (value : α) : List Char :=
  if value == Scalar.pi then ['p', 'i']
  else if value == Scalar.e then ['e']
  else
    let digits := Layout.plain.render (ToDecimal.shortest Layout.plain.tie value)
    if value < ((0 : Nat) : α) then '(' :: digits ++ [')'] else digits

def chars : Formula α → List Char
  | number value => numberText value
  | sample => ['x']
  | param index => "param".toList ++ Decimal.digits index
  | neg operand => '(' :: '-' :: operand.chars ++ [')']
  | binary op left right =>
    '(' :: left.chars ++ ' ' :: op.symbol :: ' ' :: right.chars ++ [')']
  | call f argument => f.name.toList ++ '(' :: argument.chars ++ [')']

def text (formula : Formula α) : String :=
  String.ofList formula.chars

end LeastSquares.Formula
