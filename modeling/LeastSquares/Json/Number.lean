import LeastSquares.Json.Scanner

/-!
# The values of JSON numbers

A number is read in two steps. Its leading digits, as many as fit 64 bits, make a whole number; this
is rounded, and then multiplied or divided by a power of ten. A number with many digits or a large
exponent is rounded more than once on this way. A number too large for a scalar is refused.
-/

namespace LeastSquares.Json

open Text

def wordBound : Nat := 18446744073709551616

def appendDigits (value : Nat) : List Char → Nat × Nat
  | [] => (value, 0)
  | c :: rest =>
    let longer := 10 * value + (c.toNat - '0'.toNat)
    if longer < wordBound then appendDigits longer rest else (value, rest.length + 1)

/-- A scalar times a power of ten, if it is within range. Beyond the powers that are scalars
themselves the division is made in steps. -/
def scale? {α : Type} [Scalar α] (value : α) (power : Int) : Option α :=
  if 308 < power then
    if value == ((0 : Nat) : α) then some value else none
  else if 0 ≤ power then
    let product := value * Scalar.ofDecimal 1 power
    if Scalar.isFinite product then some product else none
  else if -308 ≤ power then some (value / Scalar.ofDecimal 1 (-power))
  else if value == ((0 : Nat) : α) then some value
  else scale? (value / Scalar.ofDecimal 1 308) (power + 308)
termination_by power.natAbs
decreasing_by omega

namespace Numeral

def value? {α : Type} [Scalar α] (numeral : Numeral) : Option α :=
  let (whole, wholeLeft) := appendDigits 0 numeral.whole
  let (significand, fractionLeft) := appendDigits whole numeral.fraction
  let power : Int := wholeLeft - (numeral.fraction.length - fractionLeft : Nat)
  (scale? (significand : α) (power + numeral.exponent.getD 0)).map fun size =>
    if numeral.negative then -size else size

def natural? (numeral : Numeral) : Option Nat :=
  if !numeral.negative ∧ numeral.fraction = [] ∧ numeral.exponent = none ∧
      naturalOf numeral.whole < wordBound then
    some (naturalOf numeral.whole)
  else none

end Numeral

/-- The fault of a value that is of the wrong kind: `mismatched`, unless it is no value at all. The
inside of a list or an object is not looked at. -/
def wrongKind (α : Type) [Scalar α] (text : List Char) : JsonFault :=
  let mismatchedAfter {β : Type} (reading : Except JsonFault β) : JsonFault :=
    match reading with
    | .error fault => fault
    | .ok _ => .mismatched
  match next? text with
  | none => .unfinished
  | some (c, after) =>
    match c with
    | 'n' => mismatchedAfter (word "ull".toList after.val)
    | 't' => mismatchedAfter (word "rue".toList after.val)
    | 'f' => mismatchedAfter (word "alse".toList after.val)
    | '"' => mismatchedAfter (string after.val)
    | '[' | '{' => .mismatched
    | _ =>
      if beginsNumber c then
        match number .unfinished (skipBlanks text) with
        | .error fault => fault
        | .ok (numeral, _) => if (numeral.value? : Option α).isNone then .malformed else .mismatched
      else .malformed

def numberAs {α β : Type} [Scalar α] (read : Numeral → α → Option β) (text : List Char) :
    Reading β text :=
  match next? text with
  | none => .error .unfinished
  | some (c, _) =>
    if beginsNumber c then
      match number .unfinished (skipBlanks text) with
      | .error fault => .error fault
      | .ok (numeral, after) =>
        match (numeral.value? : Option α) with
        | none => .error .malformed
        | some value =>
          match read numeral value with
          | none => .error .mismatched
          | some result => .ok (result, after.within (length_skipBlanks_le text))
    else .error (wrongKind α text)

def real {α : Type} [Scalar α] (text : List Char) : Reading α text :=
  numberAs (fun _ value => some value) text

def natural (α : Type) [Scalar α] (text : List Char) : Reading Nat text :=
  numberAs (fun numeral (_ : α) => numeral.natural?) text

end LeastSquares.Json
