import LeastSquares.Formula.Lexer

/-!
# The parser of the formula language

The grammar:

    sum     := product (('+' | '-') product)*
    product := unary (('*' | '/') unary)*
    unary   := ('-' | '+') unary | power
    power   := atom ('^' unary)?
    atom    := number | name | function '(' sum ')' | '(' sum ')'

Sums and products associate to the left and powers to the right, and a sign binds looser than a
power. Parentheses, calls, signs and exponents may enclose one another `nestingLimit` deep, and no
tree may be higher than that, so hostile text cannot build a tree too tall to walk. Every parser
gives a shorter text to the parsers inside it, or the same text to a later level of the grammar.
-/

namespace LeastSquares.Formula

open Text

/-- The deepest nesting of a text and the greatest height of its tree. -/
def nestingLimit : Nat := 128

/-- Why a parser stopped, and the text it stopped at. Only `absent` lets an alternative be tried;
the other failures are final. -/
inductive Failure where
  | absent (rest : List Char)
  | malformedNumber (rest : List Char)
  | unknownSymbol (name rest : List Char)
  | tooDeep (rest : List Char)

structure Parsed (α : Type) (text : List Char) where
  formula : Formula α
  height : Nat
  rest : List Char
  shorter : rest.length < text.length

namespace Parsed

variable {α : Type} {text : List Char}

def within {inner : List Char} (fits : inner.length ≤ text.length) (parsed : Parsed α inner) :
    Parsed α text :=
  { parsed with shorter := Nat.lt_of_lt_of_le parsed.shorter fits }

def limited (parsed : Parsed α text) : Except Failure (Parsed α text) :=
  if parsed.height ≤ nestingLimit then .ok parsed else .error (.tooDeep parsed.rest)

end Parsed

inductive Level where
  | sum | product
  deriving DecidableEq

namespace Level

def operator? : Level → Char → Option Operator
  | sum, '+' => some .add
  | sum, '-' => some .sub
  | product, '*' => some .mul
  | product, '/' => some .div
  | _, _ => none

def rank : Level → Nat
  | sum => 6
  | product => 4

end Level

variable {α : Type} [Scalar α]

mutual

def parseChain (level : Level) (depth : Nat) (text : List Char) :
    Except Failure (Parsed α text) :=
  match parseOperand level depth text with
  | .error failure => .error failure
  | .ok first => extendChain level depth first
termination_by (text.length, level.rank + 1)
decreasing_by
  · exact .right _ (Nat.lt_succ_self _)
  · exact .left _ _ first.shorter

def parseOperand (level : Level) (depth : Nat) (text : List Char) :
    Except Failure (Parsed α text) :=
  match level with
  | .sum => parseChain .product depth text
  | .product => parseUnary depth text
termination_by (text.length, level.rank)
decreasing_by
  all_goals exact .right _ (by decide)

/-- A chain read so far, with the operators and operands that follow it. An operator without an
operand is left in the text. -/
def extendChain (level : Level) (depth : Nat) {text : List Char} (soFar : Parsed α text) :
    Except Failure (Parsed α text) :=
  match token? level.operator? soFar.rest with
  | none => .ok soFar
  | some (op, after) =>
    match parseOperand level depth after.val with
    | .error (.absent _) => .ok soFar
    | .error failure => .error failure
    | .ok operand =>
      let longer : Parsed α text :=
        { formula := .binary op soFar.formula operand.formula
          height := max soFar.height operand.height + 1
          rest := operand.rest
          shorter := by
            have := soFar.shorter; have := after.property; have := operand.shorter; omega }
      if longer.height ≤ nestingLimit then extendChain level depth longer
      else .error (.tooDeep longer.rest)
termination_by (soFar.rest.length, 0)
decreasing_by
  · exact .left _ _ after.property
  · exact .left _ _ (Nat.lt_trans operand.shorter after.property)

/-- Signs in front of a power. A plus sign leaves no trace in the tree. -/
def parseUnary (depth : Nat) (text : List Char) : Except Failure (Parsed α text) :=
  match character? '-' text with
  | some after =>
    if depth < nestingLimit then
      match parseUnary (depth + 1) after.val with
      | .error failure => .error failure
      | .ok operand =>
        Parsed.limited
          { formula := .neg operand.formula
            height := operand.height + 1
            rest := operand.rest
            shorter := Nat.lt_trans operand.shorter after.property }
    else .error (.tooDeep after.val)
  | none =>
    match character? '+' text with
    | some after =>
      if depth < nestingLimit then
        match parseUnary (depth + 1) after.val with
        | .error failure => .error failure
        | .ok operand => .ok (operand.within (Nat.le_of_lt after.property))
      else .error (.tooDeep after.val)
    | none => parsePower depth text
termination_by (text.length, 3)
decreasing_by
  · exact .left _ _ after.property
  · exact .left _ _ after.property
  · exact .right _ (by decide)

def parsePower (depth : Nat) (text : List Char) : Except Failure (Parsed α text) :=
  match parseAtom depth text with
  | .error failure => .error failure
  | .ok base =>
    match character? '^' base.rest with
    | none => .ok base
    | some after =>
      if depth < nestingLimit then
        match parseUnary (depth + 1) after.val with
        | .error failure => .error failure
        | .ok exponent =>
          Parsed.limited
            { formula := .binary .pow base.formula exponent.formula
              height := max base.height exponent.height + 1
              rest := exponent.rest
              shorter := by
                have := base.shorter; have := after.property; have := exponent.shorter; omega }
      else .error (.tooDeep after.val)
termination_by (text.length, 2)
decreasing_by
  · exact .right _ (by decide)
  · exact .left _ _ (Nat.lt_trans after.property base.shorter)

/-- A number, a name, a call, or a formula in parentheses. A name that is not followed through as a
call is refused where it begins. -/
def parseAtom (depth : Nat) (text : List Char) : Except Failure (Parsed α text) :=
  let start := skipBlanks text
  match numeral start with
  | .malformed => .error (.malformedNumber start)
  | .decimal mantissa exponent rest =>
    .ok
      { formula := .number (Scalar.ofDecimal mantissa exponent)
        height := 1
        rest := rest.val
        shorter := Nat.lt_of_lt_of_le rest.property (length_skipBlanks_le text) }
  | .absent =>
    match parseNamed depth start with
    | .ok parsed => .ok (parsed.within (length_skipBlanks_le text))
    | .error (.absent _) =>
      match parseParens depth start with
      | .ok parsed => .ok (parsed.within (length_skipBlanks_le text))
      | .error failure => .error failure
    | .error failure => .error failure
termination_by (text.length, 1)
decreasing_by
  all_goals exact .right' _ (length_skipBlanks_le text) (by decide)

def parseNamed (depth : Nat) (text : List Char) : Except Failure (Parsed α text) :=
  match identifier? text with
  | none => .error (.absent text)
  | some (name, after) =>
    match Elementary.ofName? name with
    | some f =>
      match parseParens depth after.val with
      | .error failure => .error failure
      | .ok argument =>
        Parsed.limited
          { formula := .call f argument.formula
            height := argument.height + 1
            rest := argument.rest
            shorter := Nat.lt_trans argument.shorter after.property }
    | none =>
      match ofName? name with
      | some leaf =>
        .ok { formula := leaf, height := 1, rest := after.val, shorter := after.property }
      | none => .error (.unknownSymbol name text)
termination_by (text.length, 0)
decreasing_by exact .left _ _ after.property

def parseParens (depth : Nat) (text : List Char) : Except Failure (Parsed α text) :=
  match character? '(' text with
  | none => .error (.absent (skipBlanks text))
  | some inside =>
    if depth < nestingLimit then
      match parseChain .sum (depth + 1) inside.val with
      | .error failure => .error failure
      | .ok inner =>
        match character? ')' inner.rest with
        | none => .error (.absent (skipBlanks inner.rest))
        | some after =>
          .ok
            { formula := inner.formula
              height := inner.height
              rest := after.val
              shorter := by
                have := inside.property; have := inner.shorter; have := after.property; omega }
    else .error (.tooDeep inside.val)
termination_by (text.length, 0)
decreasing_by exact .left _ _ inside.property

end

end LeastSquares.Formula
