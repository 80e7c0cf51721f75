import LeastSquares.Formula.Parser

namespace LeastSquares

open Text

inductive SyntaxError where
  | empty
  | unexpectedEnd
  | unexpectedInput (column : Nat) (snippet : List Char)
  | unknownSymbol (name : List Char) (column : Nat)
  | tooDeep (column : Nat)
  deriving DecidableEq

namespace SyntaxError

/-- The column at which a tail of a text begins: the number of bytes before it, plus one. -/
def columnOf (text rest : List Char) : Nat :=
  byteLength text - byteLength rest + 1

def unexpectedAt (text rest : List Char) : SyntaxError :=
  unexpectedInput (columnOf text rest) (rest.take 16)

def ofFailure (text : List Char) : Formula.Failure → SyntaxError
  | .absent rest | .malformedNumber rest =>
    if (trim rest).isEmpty then unexpectedEnd else unexpectedAt text rest
  | .unknownSymbol name rest => unknownSymbol name (columnOf text rest)
  | .tooDeep rest => tooDeep (columnOf text rest)

def message : SyntaxError → String
  | empty => "model expression is empty"
  | unexpectedEnd => "unexpected end of expression"
  | unexpectedInput column snippet =>
    s!"unexpected input at column {column}: '{String.ofList snippet}'"
  | unknownSymbol name column =>
    s!"unknown symbol '{String.ofList name}' at column {column} (allowed: x, pi, e, param0..param3)"
  | tooDeep column =>
    s!"expression nested too deeply at column {column} (limit {Formula.nestingLimit} levels)"

end SyntaxError

namespace Formula

variable {α : Type} [Scalar α]

def ofChars (text : List Char) : Except SyntaxError (Formula α) :=
  if (trim text).isEmpty then .error .empty
  else
    match parseChain .sum 0 text with
    | .error failure => .error (.ofFailure text failure)
    | .ok parsed =>
      let rest := trimStart parsed.rest
      if rest.isEmpty then .ok parsed.formula else .error (.unexpectedAt text rest)

def parse (source : String) : Except SyntaxError (Formula α) :=
  ofChars source.toList

end Formula

end LeastSquares
