import LeastSquares.Decimal.Basic

namespace LeastSquares

structure Layout where
  tie : Tie
  /-- Whether a number whose leading digit has this exponent is written without an exponent. -/
  positional : Int → Bool
  pointZero : Bool
  plusSign : Bool
  /-- The least number of digits after the point when an exponent is written. -/
  places : Nat
  nan : String
  infinity : String
  negativeInfinity : String

namespace Decimal

def digits (coefficient : Nat) : List Char :=
  Nat.toDigits 10 coefficient

def leadingExponent (coefficient : Nat) (exponent : Int) : Int :=
  exponent + (digits coefficient).length - 1

def positionalText (pointZero : Bool) (coefficient : Nat) (exponent : Int) : List Char :=
  let shown := digits coefficient
  match exponent with
  | .ofNat zeros =>
    shown ++ List.replicate zeros '0' ++ (if pointZero then ['.', '0'] else [])
  | .negSucc k =>
    let padded := List.replicate (k + 2 - shown.length) '0' ++ shown
    let whole := padded.length - (k + 1)
    padded.take whole ++ '.' :: padded.drop whole

def scientificText (plusSign : Bool) (places coefficient : Nat) (exponent : Int) : List Char :=
  let shown := digits coefficient
  let after := shown.drop 1 ++ List.replicate (places + 1 - shown.length) '0'
  let leading := leadingExponent coefficient exponent
  shown.take 1 ++ (if after.isEmpty then [] else '.' :: after) ++ 'e' ::
    ((if leading < 0 then ['-'] else if plusSign && 0 < leading then ['+'] else []) ++
      digits leading.natAbs)

end Decimal

namespace Layout

private def signed (negative : Bool) (text : List Char) : List Char :=
  if negative then '-' :: text else text

def render (layout : Layout) : Decimal → List Char
  | .nan => layout.nan.toList
  | .infinity negative => (if negative then layout.negativeInfinity else layout.infinity).toList
  | .finite negative coefficient exponent =>
    signed negative <|
      if layout.positional (Decimal.leadingExponent coefficient exponent) then
        Decimal.positionalText layout.pointZero coefficient exponent
      else Decimal.scientificText layout.plusSign layout.places coefficient exponent

def text {α : Type} [ToDecimal α] (layout : Layout) (value : α) : String :=
  String.ofList (layout.render (ToDecimal.shortest layout.tie value))

def significant {α : Type} [ToDecimal α] (layout : Layout) (count : Nat) (value : α) : String :=
  String.ofList
    (({ layout with positional := fun _ => false, places := count - 1 } : Layout).render
      (ToDecimal.rounded count value))

def plain : Layout where
  tie := .away
  positional _ := true
  pointZero := false
  plusSign := false
  places := 0
  nan := "NaN"
  infinity := "inf"
  negativeInfinity := "-inf"

def exponential : Layout where
  tie := .away
  positional _ := false
  pointZero := false
  plusSign := false
  places := 0
  nan := "NaN"
  infinity := "inf"
  negativeInfinity := "-inf"

def report : Layout where
  tie := .away
  positional exponent := -4 ≤ exponent ∧ exponent < 16
  pointZero := true
  plusSign := false
  places := 0
  nan := "NaN"
  infinity := "inf"
  negativeInfinity := "-inf"

/-- Numbers in JSON text: an exponent below `10 ^ (-5)` and from `10 ^ 16` on, with its sign.
JSON has no word for a number without digits. -/
def json : Layout where
  tie := .toEven
  positional exponent := -5 ≤ exponent ∧ exponent < 16
  pointZero := true
  plusSign := true
  places := 0
  nan := "null"
  infinity := "null"
  negativeInfinity := "null"

end Layout

end LeastSquares
