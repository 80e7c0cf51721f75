import LeastSquares.Formula.Symbol
import LeastSquares.Text.WhiteSpace

/-!
# The tokens of the formula language

The tokens are single characters with blanks around them, identifiers, and unsigned decimal numbers.
Whatever a scanner reads, the text it leaves is shorter than the text it was given, and its result
says so; this is what lets the parser recurse.
-/

namespace LeastSquares.Formula

open Text

/-- The next character after blanks, if it stands for something, and the text after the blanks that
follow it. -/
def token? {β : Type} (meaning : Char → Option β) (text : List Char) : Option (β × Rest text) :=
  match next? text with
  | none => none
  | some (c, after) =>
    (meaning c).map fun value => (value, after.andPerhaps (.dropWhile isBlank after.val))

def character? (c : Char) (text : List Char) : Option (Rest text) :=
  (token? (fun d => if d = c then some () else none) text).map Prod.snd

def beginsWord (c : Char) : Bool :=
  c.isAlpha || c = '_'

def continuesWord (c : Char) : Bool :=
  c.isAlphanum || c = '_'

def identifier? (text : List Char) : Option (List Char × Rest text) :=
  match text with
  | [] => none
  | c :: rest =>
    if beginsWord c then
      some (c :: rest.takeWhile continuesWord,
        (Rest.ofCons c rest).andPerhaps (.dropWhile continuesWord rest))
    else none

def fractionPart (text : List Char) : List Char × Tail text :=
  match text with
  | '.' :: rest => ((digits rest).1, (digits rest).2.behind '.')
  | other => ([], .all other)

theorem length_fractionPart_lt {text : List Char} (some_digit : (fractionPart text).1 ≠ []) :
    (fractionPart text).2.val.length < text.length := by
  unfold fractionPart at some_digit ⊢
  split at some_digit
  · exact Nat.lt_succ_of_le (digits _).2.property
  · cases some_digit rfl

/-- The power of ten at the start of a text, and what follows it. Without the letter `e` the power
is zero; after the letter there have to be digits. -/
def exponentPart? (text : List Char) : Option (Int × Tail text) :=
  match text with
  | [] => some (0, .all [])
  | c :: rest =>
    if c = 'e' || c = 'E' then
      let (negative, unsigned) := sign rest
      let (size, after) := digits unsigned.val
      if size = [] then none
      else some (integerOf negative size, (unsigned.andPerhaps after).behind c)
    else some (0, .all (c :: rest))

inductive Numeral (text : List Char) where
  | absent
  | malformed
  | decimal (mantissa : Nat) (exponent : Int) (rest : Rest text)

def numeral (text : List Char) : Numeral text :=
  let whole := digits text
  let fraction := fractionPart whole.2.val
  if absent : whole.1 = [] ∧ fraction.1 = [] then .absent
  else
    match exponentPart? fraction.2.val with
    | none => .malformed
    | some (power, rest) =>
      .decimal (naturalOf (whole.1 ++ fraction.1)) (power - fraction.1.length) ⟨rest.val, by
        have afterDigits := whole.2.property
        have afterFraction := fraction.2.property
        have afterPower := rest.property
        by_cases noWhole : whole.1 = []
        · have : fraction.2.val.length < whole.2.val.length :=
            length_fractionPart_lt fun none => absent ⟨noWhole, none⟩
          omega
        · have : whole.2.val.length < text.length := length_dropWhile_lt noWhole
          omega⟩

end LeastSquares.Formula
