import LeastSquares.Json.Number
import LeastSquares.Json.Writer
import LeastSquares.Solver.Settings

/-!
# Settings as JSON

Settings are written as an object with all fields. They are read from an object, whose missing
fields keep their standard values and whose unknown fields are passed over, or from a list of values
in the order of the fields, which may stop early. A field that is given twice is refused.
-/

namespace LeastSquares.Settings

open Text Json

inductive Field where
  | maxIterations | gradientTolerance | stepTolerance | initialDampingScale
  deriving DecidableEq

namespace Field

def all : List Field :=
  [maxIterations, gradientTolerance, stepTolerance, initialDampingScale]

def name : Field → String
  | maxIterations => "max_iterations"
  | gradientTolerance => "gradient_tolerance"
  | stepTolerance => "step_tolerance"
  | initialDampingScale => "initial_damping_scale"

def ofName? (name : List Char) : Option Field :=
  all.find? fun field => field.name.toList = name

end Field

variable {α : Type} [Scalar α]

def readField (settings : Settings α) (field : Field) (text : List Char) :
    Reading (Settings α) text :=
  match field with
  | .maxIterations =>
    (natural α text).map fun (value, rest) => ({ settings with maxIterations := value }, rest)
  | .gradientTolerance =>
    (real text).map fun (value, rest) => ({ settings with gradientTolerance := value }, rest)
  | .stepTolerance =>
    (real text).map fun (value, rest) => ({ settings with stepTolerance := value }, rest)
  | .initialDampingScale =>
    (real text).map fun (value, rest) => ({ settings with initialDampingScale := value }, rest)

def readItems (settings : Settings α) : List Field → List Char →
    Except JsonFault (Settings α × List Char)
  | fields, text =>
    match next? text with
    | none => .error .unfinished
    | some (']', rest) => .ok (settings, rest.val)
    | some (',', after) =>
      match fields with
      | [] => .error .malformed
      | field :: others =>
        match readField settings field after.val with
        | .error fault => .error fault
        | .ok (changed, rest) => readItems changed others rest.val
    | some _ => .error .malformed

def readList (text : List Char) : Except JsonFault (Settings α × List Char) :=
  match next? text with
  | some (']', rest) => .ok (standard, rest.val)
  | _ =>
    match readField standard .maxIterations text with
    | .error fault => .error fault
    | .ok (changed, rest) => readItems changed (Field.all.drop 1) rest.val

def readMembers (settings : Settings α) (seen : List Field) (text : List Char) :
    Except JsonFault (Settings α × List Char) :=
  match next? text with
  | some ('"', quote) =>
    match string quote.val with
    | .error fault => .error fault
    | .ok (key, afterKey) =>
      let field? := Field.ofName? key
      if field?.any (seen.contains ·) then .error .mismatched
      else
        match next? afterKey.val with
        | some (':', colon) =>
          let member : Reading (Settings α) colon.val :=
            match field? with
            | some field => settings.readField field colon.val
            | none => (skipValue colon.val).map fun rest => (settings, rest)
          match member with
          | .error fault => .error fault
          | .ok (changed, value) =>
            match next? value.val with
            | none => .error .unfinished
            | some (',', after) => readMembers changed (field?.toList ++ seen) after.val
            | some ('}', rest) => .ok (changed, rest.val)
            | some _ => .error .malformed
        | other => .error (missing other)
  | other => .error (missing other)
termination_by text.length
decreasing_by
  exact ((((quote.andThen afterKey).andThen colon).andThen value).andThen after).property

def readObject (text : List Char) : Except JsonFault (Settings α × List Char) :=
  match next? text with
  | some ('}', rest) => .ok (standard, rest.val)
  | _ => readMembers standard [] text

def read (text : List Char) : Except JsonFault (Settings α) := do
  let (settings, rest) ←
    match next? text with
    | some ('[', inside) => readList inside.val
    | some ('{', inside) => readObject inside.val
    | _ => .error (wrongKind α text)
  finish rest
  return settings

def ofJson (text : String) : Except (Error α) (Settings α) :=
  (read text.toList).mapError .json

def toJson [ToDecimal α] (settings : Settings α) : String :=
  Json.objectText
    [(Field.maxIterations.name, toString settings.maxIterations),
      (Field.gradientTolerance.name, Json.numberText settings.gradientTolerance),
      (Field.stepTolerance.name, Json.numberText settings.stepTolerance),
      (Field.initialDampingScale.name, Json.numberText settings.initialDampingScale)]

end LeastSquares.Settings
