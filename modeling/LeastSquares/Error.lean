import LeastSquares.Decimal.Layout
import LeastSquares.Formula.Read

namespace LeastSquares

/-- What is wrong with a JSON text: it ends too early, it is not JSON, or it is JSON that does not
describe the value wanted. -/
inductive JsonFault where
  | unfinished
  | malformed
  | mismatched
  deriving DecidableEq

inductive Error (α : Type) where
  | badSyntax (cause : SyntaxError)
  | unknownFamily (name : String)
  | unsupportedArity (indices : List Nat)
  | singularSystem (iteration : Nat) (damping : α)
  | parameterCount (expected given : Nat)
  | partialIndex (index arity : Nat)
  | initialCount (arity given : Nat)
  | columnLengths (x y : Nat)
  | noRows
  | nonFiniteRow (row : Nat)
  | noUsableRows
  | tooFewPoints (given : Nat)
  | logarithmicRange (smallest : α)
  | json (fault : JsonFault)

def minArity : Nat := 2

def maxArity : Nat := 4

namespace Error

def describeIndices (indices : List Nat) : String :=
  if indices.isEmpty then "none"
  else ", ".intercalate (indices.map fun index => s!"param{index}")

def message {α : Type} [ToDecimal α] : Error α → String
  | badSyntax cause => "Invalid expression: " ++ cause.message
  | unknownFamily name => s!"Invalid expression: unknown built-in model '{name}'"
  | unsupportedArity indices =>
    s!"models must have between {minArity} and {maxArity} parameters named param0, param1, ...; " ++
      "found " ++ describeIndices indices
  | singularSystem iteration damping =>
    s!"Damped normal equations are singular at iteration {iteration} (damping = " ++
      Layout.exponential.text damping ++ ")"
  | parameterCount expected given =>
    s!"Dimension mismatch: Expected {expected} parameters, got {given}"
  | partialIndex index arity =>
    s!"Dimension mismatch: Parameter index {index} out of range for a model with {arity} parameters"
  | initialCount arity given =>
    s!"Dimension mismatch: model has {arity} parameters but {given} initial values were given"
  | columnLengths x y => s!"Invalid input: x and y must have the same length ({x} != {y})"
  | noRows => "Invalid input: dataset must contain at least one point"
  | nonFiniteRow row => s!"Invalid input: row {row} contains a non-finite value"
  | noUsableRows => "Invalid input: no usable (x, y) rows in input"
  | tooFewPoints given =>
    s!"Invalid input: at least 2 sample points are required, got {given}"
  | logarithmicRange smallest =>
    "Invalid input: log-spaced sampling needs positive x, smallest is " ++
      Layout.plain.text smallest
  | json .unfinished => "JSON error: the text ends too early"
  | json .malformed => "JSON error: the text is not well formed"
  | json .mismatched => "JSON error: the text does not describe the value wanted"

end Error

end LeastSquares
