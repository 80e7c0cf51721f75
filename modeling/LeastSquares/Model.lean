import LeastSquares.Error
import LeastSquares.Formula.Derivative
import LeastSquares.Linear.Dense
import LeastSquares.Program

namespace LeastSquares

structure Model (α : Type) [Scalar α] where
  source : String
  formula : Formula α
  arity : Nat
  arity_ge : minArity ≤ arity
  arity_le : arity ≤ maxArity
  parameters_eq : formula.parameters = List.range arity
  program : Program α := .lower formula
  program_eq : program = .lower formula := by rfl
  derivatives : Vector (Formula α) arity := .ofFn fun i => formula.derivative i
  derivatives_eq : derivatives = .ofFn fun i => formula.derivative i := by rfl
  partials : Vector (Program α) arity := derivatives.map .lower
  partials_eq : partials = derivatives.map .lower := by rfl

namespace Model

variable {α : Type} [Scalar α]

def ofFormula (source : String) (formula : Formula α) : Except (Error α) (Model α) :=
  let indices := formula.parameters
  if supported : minArity ≤ indices.length ∧ indices.length ≤ maxArity ∧
      indices = List.range indices.length then
    .ok
      { source
        formula
        arity := indices.length
        arity_ge := supported.1
        arity_le := supported.2.1
        parameters_eq := supported.2.2 }
  else .error (.unsupportedArity indices)

def compile (source : String) : Except (Error α) (Model α) :=
  match Formula.parse source with
  | .error cause => .error (.badSyntax cause)
  | .ok formula => ofFormula source formula

variable (model : Model α) {count : Nat} (samples : Vector α count) (params : List α)

def eval : Except (Error α) (Vector α count) :=
  if params.length = model.arity then .ok (model.program.run samples params)
  else .error (.parameterCount model.arity params.length)

def partialAt (index : Nat) : Except (Error α) (Vector α count) :=
  if params.length = model.arity then
    match model.partials[index]? with
    | some program => .ok (program.run samples params)
    | none => .error (.partialIndex index model.arity)
  else .error (.parameterCount model.arity params.length)

def jacobian : Except (Error α) (DenseMatrix α count model.arity) :=
  if params.length = model.arity then
    .ok (DenseMatrix.transpose (model.partials.map fun program => program.run samples params))
  else .error (.parameterCount model.arity params.length)

end Model

end LeastSquares
