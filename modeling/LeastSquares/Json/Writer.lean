import LeastSquares.Decimal.Layout

namespace LeastSquares.Json

/-- The text of a number. One without digits has no JSON form and is written as `null`. -/
def numberText {α : Type} [ToDecimal α] (value : α) : String :=
  Layout.json.text value

def optionalText (value : Option String) : String :=
  value.getD "null"

def listText (values : List String) : String :=
  "[" ++ ",".intercalate values ++ "]"

/-- A text in quotes, for texts in which nothing needs to be escaped. -/
def quotedText (text : String) : String :=
  "\"" ++ text ++ "\""

def objectText (fields : List (String × String)) : String :=
  "\x7b" ++ ",".intercalate (fields.map fun (key, value) => quotedText key ++ ":" ++ value) ++
    "\x7d"

end LeastSquares.Json
