import LeastSquares.Formula.Basic
import LeastSquares.Text.Basic

namespace LeastSquares

def Elementary.ofName? (name : List Char) : Option Elementary :=
  match String.ofList name with
  | "exp" => some .exp
  | "log" | "ln" => some .log
  | "log10" => some .log10
  | "sin" => some .sin
  | "cos" => some .cos
  | "tan" => some .tan
  | "sqrt" => some .sqrt
  | _ => none

namespace Formula

def indexBound : Nat := 18446744073709551616

/-- The index in the name of a parameter: `param` or `var`, then nothing but digits. -/
def parameterIndex? (name : List Char) : Option Nat :=
  let digits? :=
    match "param".toList.isPrefixOf? name with
    | some digits => some digits
    | none => "var".toList.isPrefixOf? name
  match digits? with
  | none => none
  | some digits =>
    if digits ≠ [] ∧ digits.all Char.isDigit ∧ Text.naturalOf digits < indexBound then
      some (Text.naturalOf digits)
    else none

def ofName? {α : Type} [Scalar α] (name : List Char) : Option (Formula α) :=
  match String.ofList name with
  | "pi" => some (number Scalar.pi)
  | "e" => some (number Scalar.e)
  | "x" => some sample
  | _ => (parameterIndex? name).map param

end Formula

end LeastSquares
