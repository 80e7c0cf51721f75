import LeastSquares.Formula.Parser

/-!
# The grammar of the formula language

What a formula text is, without reference to the parser. A text spells a sequence of tokens: before
each stand any number of blanks, behind the last any white space, and numbers and words are as long
as they can be. A sequence of tokens is derived as a formula by the rules

    sum     → product | sum ('+' | '-') product
    product → unary | product ('*' | '/') unary
    unary   → ('-' | '+') unary | power
    power   → atom | atom '^' unary
    atom    → number | name | function '(' sum ')' | '(' sum ')'

and a derivation counts how deep parentheses, calls, signs and exponents enclose one another.
-/

namespace LeastSquares.Formula

open Text

inductive Token where
  | number (mantissa : Nat) (exponent : Int)
  | word (name : List Char)
  | symbol (c : Char)

def IsSymbol (c : Char) : Prop :=
  c ∈ ['(', ')', '+', '-', '*', '/', '^']

def AllDigits (text : List Char) : Prop :=
  ∀ c ∈ text, c.isDigit = true

def IsWord (text : List Char) : Prop :=
  ∃ c rest, text = c :: rest ∧ beginsWord c = true ∧ ∀ d ∈ rest, continuesWord d = true

/-- Digits with at most one point among, before or after them. They spell
`mantissa · 10 ^ (-places)`. -/
inductive Significand : List Char → (mantissa places : Nat) → Prop where
  | whole {digits : List Char} (some_digit : digits ≠ []) (digital : AllDigits digits) :
      Significand digits (naturalOf digits) 0
  | pointed {whole fraction : List Char} (some_digit : ¬ (whole = [] ∧ fraction = []))
      (digital : AllDigits whole) (digitalToo : AllDigits fraction) :
      Significand (whole ++ '.' :: fraction) (naturalOf (whole ++ fraction)) fraction.length

inductive Sign : List Char → (negative : Bool) → Prop where
  | none : Sign [] false
  | plus : Sign ['+'] false
  | minus : Sign ['-'] true

inductive Power : List Char → Int → Prop where
  | none : Power [] 0
  | some {letter : Char} {signs digits : List Char} {negative : Bool}
      (marks : letter = 'e' ∨ letter = 'E') (signed : Sign signs negative)
      (some_digit : digits ≠ []) (digital : AllDigits digits) :
      Power (letter :: (signs ++ digits)) (integerOf negative digits)

def IsNumber (text : List Char) : Prop :=
  ∃ significand power mantissa places shift, text = significand ++ power ∧
    Significand significand mantissa places ∧ Power power shift

/-- Nothing that begins the rest of a text could have been taken as well. -/
def Longest (IsLexeme : List Char → Prop) (lexeme rest : List Char) : Prop :=
  ∀ more tail, rest = more ++ tail → IsLexeme (lexeme ++ more) → more = []

/-- The token at the very start of a text, and what it leaves. Behind digits a letter `e` belongs to
the number, so there is no token if no power follows it. -/
inductive Reads : List Char → Token → List Char → Prop where
  | symbol {c : Char} {rest : List Char} (symbolic : IsSymbol c) : Reads (c :: rest) (.symbol c) rest
  | word {name rest : List Char} (isWord : IsWord name) (longest : Longest IsWord name rest) :
      Reads (name ++ rest) (.word name) rest
  | number {significand power rest : List Char} {mantissa places : Nat} {shift : Int}
      (digits : Significand significand mantissa places) (shifted : Power power shift)
      (longest : Longest IsNumber (significand ++ power) rest)
      (complete : ∀ letter tail, rest = letter :: tail → letter = 'e' ∨ letter = 'E' → power ≠ []) :
      Reads (significand ++ power ++ rest) (.number mantissa (shift - places)) rest

inductive Spells : List Char → List Token → Prop where
  | done {text : List Char} (white : ∀ c ∈ text, isWhiteSpace c = true) : Spells text []
  | next {blanks text rest : List Char} {token : Token} {tokens : List Token}
      (blank : ∀ c ∈ blanks, isBlank c = true) (read : Reads text token rest)
      (others : Spells rest tokens) : Spells (blanks ++ text) (token :: tokens)

inductive Calls : List Char → Elementary → Prop where
  | own (f : Elementary) : Calls f.name.toList f
  | ln : Calls ['l', 'n'] .log

inductive Names {α : Type} [Scalar α] : List Char → Formula α → Prop where
  | sample : Names ['x'] sample
  | pi : Names ['p', 'i'] (number Scalar.pi)
  | e : Names ['e'] (number Scalar.e)
  | param {stem digits : List Char} (stems : stem = ['p', 'a', 'r', 'a', 'm'] ∨ stem = ['v', 'a', 'r'])
      (some_digit : digits ≠ []) (digital : AllDigits digits) (bounded : naturalOf digits < UInt64.size) :
      Names (stem ++ digits) (param (naturalOf digits))

inductive Joins : Level → Char → Operator → Prop where
  | add : Joins .sum '+' .add
  | sub : Joins .sum '-' .sub
  | mul : Joins .product '*' .mul
  | div : Joins .product '/' .div

inductive Category where
  | chain (level : Level)
  | unary
  | power
  | atom

def Level.operands : Level → Category
  | sum => .chain .product
  | product => .unary

/-- Tokens of a category that spell a formula, and how deep they nest. -/
inductive Derives {α : Type} [Scalar α] :
    Category → (nesting : Nat) → List Token → Formula α → Prop where
  | operand {level : Level} {nesting : Nat} {tokens : List Token} {formula : Formula α}
      (inner : Derives level.operands nesting tokens formula) :
      Derives (.chain level) nesting tokens formula
  | operation {level : Level} {deep deepToo : Nat} {before after : List Token} {c : Char}
      {op : Operator} {left right : Formula α} (first : Derives (.chain level) deep before left)
      (joins : Joins level c op) (second : Derives level.operands deepToo after right) :
      Derives (.chain level) (max deep deepToo) (before ++ .symbol c :: after)
        (binary op left right)
  | minus {nesting : Nat} {tokens : List Token} {formula : Formula α}
      (inner : Derives .unary nesting tokens formula) :
      Derives .unary (nesting + 1) (.symbol '-' :: tokens) (neg formula)
  | plus {nesting : Nat} {tokens : List Token} {formula : Formula α}
      (inner : Derives .unary nesting tokens formula) :
      Derives .unary (nesting + 1) (.symbol '+' :: tokens) formula
  | unsigned {nesting : Nat} {tokens : List Token} {formula : Formula α}
      (inner : Derives .power nesting tokens formula) : Derives .unary nesting tokens formula
  | raised {deep deepToo : Nat} {before after : List Token} {base exponent : Formula α}
      (first : Derives .atom deep before base) (second : Derives .unary deepToo after exponent) :
      Derives .power (max deep (deepToo + 1)) (before ++ .symbol '^' :: after)
        (binary .pow base exponent)
  | bare {nesting : Nat} {tokens : List Token} {formula : Formula α}
      (inner : Derives .atom nesting tokens formula) : Derives .power nesting tokens formula
  | number (mantissa : Nat) (exponent : Int) :
      Derives .atom 0 [.number mantissa exponent] (number (Scalar.ofDecimal mantissa exponent))
  | name {name : List Char} {leaf : Formula α} (named : Names name leaf) :
      Derives .atom 0 [.word name] leaf
  | called {nesting : Nat} {name : List Char} {f : Elementary} {tokens : List Token}
      {argument : Formula α} (calls : Calls name f)
      (inner : Derives (.chain .sum) nesting tokens argument) :
      Derives .atom (nesting + 1) (.word name :: .symbol '(' :: (tokens ++ [.symbol ')']))
        (call f argument)
  | enclosed {nesting : Nat} {tokens : List Token} {formula : Formula α}
      (inner : Derives (.chain .sum) nesting tokens formula) :
      Derives .atom (nesting + 1) (.symbol '(' :: (tokens ++ [.symbol ')'])) formula

/-- The texts of a formula: they spell tokens that are derived as the formula, and neither the
derivation nests nor the tree is taller than the limit allows. -/
def Sentence {α : Type} [Scalar α] (source : String) (formula : Formula α) : Prop :=
  ∃ tokens nesting, Spells source.toList tokens ∧ Derives (.chain .sum) nesting tokens formula ∧
    nesting ≤ nestingLimit ∧ formula.height ≤ nestingLimit

end LeastSquares.Formula
