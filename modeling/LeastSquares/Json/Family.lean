import LeastSquares.Family
import LeastSquares.Json.Number
import LeastSquares.Json.Writer

namespace LeastSquares.Family

open Text Json

def named (name : List Char) : Except JsonFault Family :=
  match ofName? name with
  | some family => .ok family
  | none => .error .mismatched

def readObject (α : Type) [Scalar α] (text : List Char) : Except JsonFault (Family × List Char) :=
  match next? text with
  | some ('"', quote) =>
    match string quote.val with
    | .error fault => .error fault
    | .ok (key, afterKey) =>
      match named key with
      | .error fault => .error fault
      | .ok family =>
        match next? afterKey.val with
        | some (':', colon) =>
          match next? colon.val with
          | some ('n', letter) =>
            match word "ull".toList letter.val with
            | .error fault => .error fault
            | .ok null =>
              match next? null.val with
              | some ('}', rest) => .ok (family, rest.val)
              | other => .error (missing other)
          | _ => .error (wrongKind α colon.val)
        | other => .error (missing other)
  | _ => .error (wrongKind α text)

/-- A family is a name in quotes, or an object whose only key is the name and whose value is
`null`. -/
def read (α : Type) [Scalar α] (text : List Char) : Except JsonFault Family := do
  let (family, rest) ←
    match next? text with
    | some ('"', quote) => do
      let (name, rest) ← string quote.val
      let family ← named name
      pure (family, rest.val)
    | some ('{', inside) => readObject α inside.val
    | other => .error (missing other)
  finish rest
  return family

def ofJson {α : Type} [Scalar α] (text : String) : Except (Error α) Family :=
  (read α text.toList).mapError .json

def toJson (family : Family) : String :=
  Json.quotedText family.name

end LeastSquares.Family
