import Mathlib.Data.String.Basic
import LeastSquares.Formula.Read
import LeastSquares.Proofs.Formula.Acceptance

/-!
# Where a text is at fault

Whatever a parser leaves or stops at is an end of the text it was given: no alternative that is
tried and no operator that is given back changes that (`parseChain_inside`). So every column named
by a refusal is a place of the text, and what a refusal quotes stands there.
-/

namespace LeastSquares

namespace Formula

open Text

/-! ## What scanners leave -/

theorem skipBlanks_suffix (text : List Char) : skipBlanks text <:+ text :=
  List.dropWhile_suffix isBlank

theorem token?_suffix {β : Type} {meaning : Char → Option β} {text : List Char} {value : β}
    {after : Rest text} (read : token? meaning text = some (value, after)) :
    after.val <:+ text := by
  obtain ⟨c, tail, start, -, left⟩ := token?_eq_some read
  have first : tail <:+ text :=
    (start ▸ List.suffix_cons c tail).trans (skipBlanks_suffix text)
  exact (left ▸ skipBlanks_suffix tail).trans first

theorem character?_suffix {c : Char} {text : List Char} {after : Rest text}
    (read : character? c text = some after) : after.val <:+ text := by
  obtain ⟨⟨value, _⟩, accepted, rfl⟩ := Option.map_eq_some_iff.mp read
  exact token?_suffix accepted

theorem Reads.suffix {text rest : List Char} {token : Token} (read : Reads text token rest) :
    rest <:+ text := by
  cases read with
  | symbol symbolic => exact List.suffix_cons _ _
  | word isWord longest => exact List.suffix_append _ _
  | number digits shifted longest complete => exact List.suffix_append _ _

/-! ## What parsers leave -/

section Parsers

variable (α : Type) [Scalar α]

def MeansNothing (name : List Char) : Prop :=
  (∀ f, ¬ Calls name f) ∧ ∀ leaf : Formula α, ¬ Names name leaf

/-- A failure stops at an end of the text. A symbol is called unknown where it stands as a whole. -/
def Failure.Inside (text : List Char) : Failure → Prop
  | absent rest | malformedNumber rest | tooDeep rest => rest <:+ text
  | unknownSymbol name rest =>
    rest <:+ text ∧ (∃ after, Reads rest (.word name) after) ∧ MeansNothing α name

def Failure.rest : Failure → List Char
  | absent rest | malformedNumber rest | unknownSymbol _ rest | tooDeep rest => rest

variable {α}

theorem Failure.Inside.rest_suffix {failure : Failure} {text : List Char}
    (inside : failure.Inside α text) : failure.rest <:+ text := by
  cases failure with
  | absent rest | malformedNumber rest | tooDeep rest => exact inside
  | unknownSymbol name rest => exact inside.1

theorem Failure.Inside.mono {failure : Failure} {inner text : List Char}
    (inside : failure.Inside α inner) (suffix : inner <:+ text) : failure.Inside α text := by
  cases failure with
  | absent rest | malformedNumber rest | tooDeep rest => exact inside.trans suffix
  | unknownSymbol name rest => exact ⟨inside.1.trans suffix, inside.2⟩

def StaysInside (text : List Char) {inner : List Char} :
    Except Failure (Parsed α inner) → Prop
  | .ok parsed => parsed.rest <:+ text
  | .error failure => failure.Inside α text

theorem StaysInside.limited {text : List Char} {parsed : Parsed α text}
    (suffix : parsed.rest <:+ text) : StaysInside text parsed.limited := by
  unfold Parsed.limited
  split
  · exact suffix
  · exact suffix

theorem StaysInside.mono {inner text : List Char} {answer : Except Failure (Parsed α inner)}
    (inside : StaysInside inner answer) (suffix : inner <:+ text) : StaysInside text answer := by
  cases answer with
  | ok parsed => exact List.IsSuffix.trans inside suffix
  | error failure => exact Failure.Inside.mono inside suffix

mutual

theorem parseChain_inside (level : Level) (depth : Nat) (text : List Char) :
    StaysInside text (parseChain (α := α) level depth text) := by
  have operand := parseOperand_inside level depth text
  rw [parseChain]
  cases result : parseOperand (α := α) level depth text with
  | error failure =>
      rw [result] at operand
      exact operand
  | ok first =>
      rw [result] at operand
      exact extendChain_inside level depth operand
termination_by (text.length, level.rank + 1)
decreasing_by
  · exact .right _ (Nat.lt_succ_self _)
  · exact .left _ _ first.shorter

theorem parseOperand_inside (level : Level) (depth : Nat) (text : List Char) :
    StaysInside text (parseOperand (α := α) level depth text) := by
  match level with
  | .sum =>
      rw [parseOperand.eq_def]
      exact parseChain_inside .product depth text
  | .product =>
      rw [parseOperand.eq_def]
      exact parseUnary_inside depth text
termination_by (text.length, level.rank)
decreasing_by
  all_goals exact .right _ (by decide)

theorem extendChain_inside (level : Level) (depth : Nat) {text : List Char}
    {soFar : Parsed α text} (suffix : soFar.rest <:+ text) :
    StaysInside text (extendChain level depth soFar) := by
  rw [extendChain]
  cases joined : token? level.operator? soFar.rest with
  | none => exact suffix
  | some token =>
      obtain ⟨op, after⟩ := token
      have behind : after.val <:+ text := (token?_suffix joined).trans suffix
      have right := parseOperand_inside level depth after.val
      cases attempt : parseOperand (α := α) level depth after.val with
      | error failure =>
          rw [attempt] at right
          cases failure with
          | absent rest =>
              -- The operator is given back, with what stood before it.
              simp only [attempt]
              exact suffix
          | malformedNumber rest | unknownSymbol name rest | tooDeep rest =>
              simp only [attempt]
              exact right.mono behind
      | ok operand =>
          rw [attempt] at right
          have suffix : operand.rest <:+ text := List.IsSuffix.trans right behind
          simp only [attempt]
          split
          · exact extendChain_inside level depth suffix
          · exact suffix
termination_by (soFar.rest.length, 0)
decreasing_by
  · exact .left _ _ after.property
  · exact .left _ _ (Nat.lt_trans operand.shorter after.property)

theorem parseUnary_inside (depth : Nat) (text : List Char) :
    StaysInside text (parseUnary (α := α) depth text) := by
  rw [parseUnary]
  cases minus : character? '-' text with
  | some after =>
      have behind := character?_suffix minus
      have inner := parseUnary_inside (depth + 1) after.val
      dsimp only
      split
      · cases result : parseUnary (α := α) (depth + 1) after.val with
        | error failure =>
            rw [result] at inner
            exact inner.mono behind
        | ok operand =>
            rw [result] at inner
            exact .limited (List.IsSuffix.trans inner behind)
      · exact behind
  | none =>
      cases plus : character? '+' text with
      | some after =>
          have behind := character?_suffix plus
          have inner := parseUnary_inside (depth + 1) after.val
          dsimp only
          split
          · cases result : parseUnary (α := α) (depth + 1) after.val with
            | error failure =>
                rw [result] at inner
                exact inner.mono behind
            | ok operand =>
                rw [result] at inner
                exact List.IsSuffix.trans inner behind
          · exact behind
      | none => exact parsePower_inside depth text
termination_by (text.length, 3)
decreasing_by
  · exact .right _ (by decide)
  · exact .left _ _ after.property
  · exact .left _ _ after.property

theorem parsePower_inside (depth : Nat) (text : List Char) :
    StaysInside text (parsePower (α := α) depth text) := by
  have atom := parseAtom_inside depth text
  rw [parsePower]
  cases result : parseAtom (α := α) depth text with
  | error failure =>
      rw [result] at atom
      exact atom
  | ok base =>
      rw [result] at atom
      cases hat : character? '^' base.rest with
      | none =>
          simp only [hat]
          exact atom
      | some after =>
          have behind : after.val <:+ text := (character?_suffix hat).trans atom
          have inner := parseUnary_inside (depth + 1) after.val
          simp only [hat]
          split
          · cases answer : parseUnary (α := α) (depth + 1) after.val with
            | error failure =>
                rw [answer] at inner
                exact inner.mono behind
            | ok exponent =>
                rw [answer] at inner
                exact .limited (List.IsSuffix.trans inner behind)
          · exact behind
termination_by (text.length, 2)
decreasing_by
  · exact .right _ (by decide)
  · exact .left _ _ (Nat.lt_trans after.property base.shorter)

theorem parseAtom_inside (depth : Nat) (text : List Char) :
    StaysInside text (parseAtom (α := α) depth text) := by
  have start := skipBlanks_suffix text
  rw [parseAtom]
  cases numeric : numeral (skipBlanks text) with
  | malformed => exact start
  | decimal mantissa exponent rest => exact (numeral_sound numeric).suffix.trans start
  | absent =>
      have named := parseNamed_inside depth (skipBlanks text)
      have enclosed := parseParens_inside depth (skipBlanks text)
      cases result : parseNamed (α := α) depth (skipBlanks text) with
      | ok parsed =>
          rw [result] at named
          exact List.IsSuffix.trans named start
      | error failure =>
          rw [result] at named
          cases failure with
          | malformedNumber rest | unknownSymbol name rest | tooDeep rest => exact named.mono start
          | absent rest =>
              -- No name stands here, so the parentheses are tried at the same place.
              cases answer : parseParens (α := α) depth (skipBlanks text) with
              | ok parsed =>
                  rw [answer] at enclosed
                  exact List.IsSuffix.trans enclosed start
              | error failure =>
                  rw [answer] at enclosed
                  exact enclosed.mono start
termination_by (text.length, 1)
decreasing_by
  all_goals exact .right' _ (length_skipBlanks_le text) (by decide)

theorem parseNamed_inside (depth : Nat) (text : List Char) :
    StaysInside text (parseNamed (α := α) depth text) := by
  rw [parseNamed]
  cases word : identifier? text with
  | none => exact List.suffix_rfl
  | some result =>
      obtain ⟨name, after⟩ := result
      have read := identifier?_sound word
      dsimp only
      cases function : Elementary.ofName? name with
      | some f =>
          have argument := parseParens_inside depth after.val
          cases answer : parseParens (α := α) depth after.val with
          | error failure =>
              rw [answer] at argument
              exact argument.mono read.suffix
          | ok parsed =>
              rw [answer] at argument
              exact .limited (List.IsSuffix.trans argument read.suffix)
      | none =>
          dsimp only
          cases found : ofName? (α := α) name with
          | some leaf => exact read.suffix
          | none =>
              refine ⟨List.suffix_rfl, ⟨after.val, read⟩, fun f calls => ?_, fun leaf named => ?_⟩
              · rw [function_named.mpr calls] at function
                cases function
              · rw [leaf_named.mpr named] at found
                cases found
termination_by (text.length, 0)
decreasing_by exact .left _ _ after.property

theorem parseParens_inside (depth : Nat) (text : List Char) :
    StaysInside text (parseParens (α := α) depth text) := by
  rw [parseParens]
  cases opened : character? '(' text with
  | none => exact skipBlanks_suffix text
  | some inside =>
      have behind := character?_suffix opened
      have inner := parseChain_inside .sum (depth + 1) inside.val
      dsimp only
      split
      · cases result : parseChain (α := α) .sum (depth + 1) inside.val with
        | error failure =>
            rw [result] at inner
            exact inner.mono behind
        | ok parsed =>
            rw [result] at inner
            have suffix : parsed.rest <:+ text := List.IsSuffix.trans inner behind
            dsimp only
            cases closed : character? ')' parsed.rest with
            | none => exact (skipBlanks_suffix _).trans suffix
            | some after => exact (character?_suffix closed).trans suffix
      · exact behind
termination_by (text.length, 0)
decreasing_by exact .left _ _ inside.property

end

end Parsers

end Formula

/-! ## Columns -/

namespace Text

theorem byteLength_eq (text : List Char) : byteLength text = String.utf8Len text := by
  induction text with
  | nil => rfl
  | cons c rest ih =>
      rw [String.utf8Len_cons, ← ih, Nat.add_comm]
      rfl

theorem byteLength_toList (source : String) : byteLength source.toList = source.utf8ByteSize := by
  rw [byteLength_eq, String.utf8Len_toList]

theorem byteLength_append (front rest : List Char) :
    byteLength (front ++ rest) = byteLength front + byteLength rest := by
  rw [byteLength_eq, String.utf8Len_append, ← byteLength_eq, ← byteLength_eq]

theorem byteLength_le_of_suffix {rest text : List Char} (suffix : rest <:+ text) :
    byteLength rest ≤ byteLength text := by
  obtain ⟨front, rfl⟩ := suffix
  rw [byteLength_append]
  exact Nat.le_add_left _ _

end Text

namespace SyntaxError

open Formula Text

def column? : SyntaxError → Option Nat
  | empty | unexpectedEnd => none
  | unexpectedInput column _ | unknownSymbol _ column | tooDeep column => some column

def quotation? : SyntaxError → Option (List Char)
  | empty | unexpectedEnd | tooDeep _ => none
  | unexpectedInput _ quoted | unknownSymbol quoted _ => some quoted

theorem message_of_column? {cause : SyntaxError} {column : Nat}
    (named : cause.column? = some column) :
    ∃ before after, cause.message = before ++ s!" at column {column}" ++ after := by
  cases cause with
  | empty | unexpectedEnd => cases named
  | unexpectedInput place snippet =>
      cases named
      have words : "unexpected input at column " = "unexpected input" ++ " at column " := by decide
      exact ⟨"unexpected input", s!": '{String.ofList snippet}'", by
        unfold message
        simp only [ToString.toString, words, String.append_assoc]⟩
  | unknownSymbol name place =>
      cases named
      have words : "' at column " = "'" ++ " at column " := by decide
      exact ⟨s!"unknown symbol '{String.ofList name}'", " (allowed: x, pi, e, param0..param3)", by
        unfold message
        simp only [ToString.toString, words, String.append_assoc]⟩
  | tooDeep place =>
      cases named
      have words : "expression nested too deeply at column " =
        "expression nested too deeply" ++ " at column " := by decide
      exact ⟨"expression nested too deeply", s!" (limit {nestingLimit} levels)", by
        unfold message
        simp only [ToString.toString, words, String.append_assoc]⟩

theorem message_of_quotation? {cause : SyntaxError} {quoted : List Char}
    (present : cause.quotation? = some quoted) :
    ∃ before after, cause.message = before ++ s!"'{String.ofList quoted}'" ++ after := by
  cases cause with
  | empty | unexpectedEnd | tooDeep place => cases present
  | unexpectedInput place snippet =>
      cases present
      have words : ": '" = ": " ++ "'" := by decide
      exact ⟨s!"unexpected input at column {place}: ", "", by
        unfold message
        simp only [ToString.toString, words, String.append_assoc, String.append_empty]⟩
  | unknownSymbol name place =>
      cases present
      have words : "unknown symbol '" = "unknown symbol " ++ "'" := by decide
      have wordsAfter : "' at column " = "'" ++ " at column " := by decide
      exact ⟨"unknown symbol ", s!" at column {place} (allowed: x, pi, e, param0..param3)", by
        unfold message
        simp only [ToString.toString, words, wordsAfter, String.append_assoc]⟩

/-- The rest of a text begins at a column: one more than the number of bytes before it. -/
def BeginsAt (source : String) (column : Nat) (rest : List Char) : Prop :=
  ∃ before : String, source = before ++ String.ofList rest ∧ column = before.utf8ByteSize + 1

theorem beginsAt_columnOf {source : String} {rest : List Char} (suffix : rest <:+ source.toList) :
    BeginsAt source (columnOf source.toList rest) rest := by
  obtain ⟨front, whole⟩ := suffix
  refine ⟨String.ofList front, ?_, ?_⟩
  · rw [← String.ofList_append, whole, String.ofList_toList]
  · rw [columnOf, ← whole, byteLength_append, Nat.add_sub_cancel, ← byteLength_toList,
      String.toList_ofList]

namespace BeginsAt

variable {source : String} {column : Nat} {rest : List Char}

theorem column_pos (begins : BeginsAt source column rest) : 1 ≤ column := by
  obtain ⟨before, -, rfl⟩ := begins
  exact Nat.le_add_left _ _

theorem column_le (begins : BeginsAt source column rest) : column ≤ source.utf8ByteSize + 1 := by
  obtain ⟨before, rfl, rfl⟩ := begins
  rw [String.utf8ByteSize_append]
  exact Nat.succ_le_succ (Nat.le_add_right _ _)

theorem isValid (begins : BeginsAt source column rest) :
    String.Pos.Raw.IsValid source ⟨column - 1⟩ := by
  obtain ⟨before, rfl, rfl⟩ := begins
  exact String.Pos.Raw.isValid_iff_exists_append.mpr ⟨before, String.ofList rest, rfl, rfl⟩

end BeginsAt

/-- A refusal is right about a text: what it quotes are the first characters, or it is the whole
word, from the column it names. -/
inductive Fits (α : Type) [Scalar α] (source : String) : SyntaxError → Prop where
  | empty : Fits α source empty
  | unexpectedEnd : Fits α source unexpectedEnd
  | unexpectedInput {column : Nat} {rest : List Char} (begins : BeginsAt source column rest)
      (visible : rest ≠ []) : Fits α source (unexpectedInput column (rest.take 16))
  | unknownSymbol {column : Nat} {name rest after : List Char}
      (begins : BeginsAt source column rest) (reads : Reads rest (.word name) after)
      (unknown : MeansNothing α name) : Fits α source (unknownSymbol name column)
  | tooDeep {column : Nat} {rest : List Char} (begins : BeginsAt source column rest) :
      Fits α source (tooDeep column)

namespace Fits

variable {α : Type} [Scalar α] {source : String} {cause : SyntaxError}

theorem exists_rest {column : Nat} (fits : Fits α source cause)
    (named : cause.column? = some column) : ∃ rest, BeginsAt source column rest := by
  cases fits with
  | empty | unexpectedEnd => cases named
  | unexpectedInput begins visible => exact ⟨_, Option.some.inj named ▸ begins⟩
  | unknownSymbol begins reads unknown => exact ⟨_, Option.some.inj named ▸ begins⟩
  | tooDeep begins => exact ⟨_, Option.some.inj named ▸ begins⟩

theorem ofFailure {failure : Failure} (inside : failure.Inside α source.toList) :
    Fits α source (ofFailure source.toList failure) := by
  cases failure with
  | absent rest | malformedNumber rest =>
      unfold SyntaxError.ofFailure
      dsimp only
      split
      · exact .unexpectedEnd
      · rename_i visible
        refine .unexpectedInput (beginsAt_columnOf inside) fun none => visible ?_
        rw [none]
        rfl
  | unknownSymbol name rest =>
      obtain ⟨suffix, ⟨after, reads⟩, unknown⟩ := inside
      exact .unknownSymbol (beginsAt_columnOf suffix) reads unknown
  | tooDeep rest => exact .tooDeep (beginsAt_columnOf inside)

end Fits

end SyntaxError

namespace Formula

open Text SyntaxError

variable {α : Type} [Scalar α]

theorem remainder_suffix {text : List Char} {parsed : Parsed α text}
    (accepted : parseChain .sum 0 text = .ok parsed) : trimStart parsed.rest <:+ text := by
  have inside := parseChain_inside (α := α) .sum 0 text
  rw [accepted] at inside
  exact (List.dropWhile_suffix _).trans inside

theorem parse_refusal_fits {source : String} {cause : SyntaxError}
    (refused : parse (α := α) source = .error cause) : Fits α source cause := by
  unfold parse ofChars at refused
  split at refused
  · cases refused
    exact .empty
  · have inside := parseChain_inside (α := α) .sum 0 source.toList
    cases result : parseChain (α := α) .sum 0 source.toList with
    | error failure =>
        rw [result] at inside refused
        cases refused
        exact .ofFailure inside
    | ok parsed =>
        rw [result] at refused
        dsimp only at refused
        split at refused
        · cases refused
        · rename_i visible
          cases refused
          refine .unexpectedInput (beginsAt_columnOf (remainder_suffix result)) fun none => ?_
          exact visible (List.isEmpty_iff.mpr none)

/-- Refusals point into the text. Whatever is quoted stands at the column named, an unknown symbol
as a whole word; the column is that of a character or of the end, never one within a character; and
the text from there on has no more bytes than the whole, so no column is cut off at zero. -/
theorem parse_refusal_points (α : Type) [Scalar α] (source : String) :
    (∀ cause, parse (α := α) source = .error cause →
      Fits α source cause ∧
      (∀ quoted, cause.quotation? = some quoted →
        ∃ before after, cause.message = before ++ s!"'{String.ofList quoted}'" ++ after) ∧
      ∀ column, cause.column? = some column →
        (∃ before after, cause.message = before ++ s!" at column {column}" ++ after) ∧
        1 ≤ column ∧ column ≤ source.utf8ByteSize + 1 ∧
        String.Pos.Raw.IsValid source ⟨column - 1⟩) ∧
    (∀ failure, parseChain (α := α) .sum 0 source.toList = .error failure →
      byteLength failure.rest ≤ byteLength source.toList) ∧
    ∀ parsed, parseChain (α := α) .sum 0 source.toList = .ok parsed →
      byteLength (trimStart parsed.rest) ≤ byteLength source.toList := by
  refine ⟨fun cause refused => ?_, fun failure failed => ?_, fun parsed accepted => ?_⟩
  · have fits := parse_refusal_fits refused
    refine ⟨fits, fun quoted => message_of_quotation?, fun column named => ?_⟩
    obtain ⟨rest, begins⟩ := fits.exists_rest named
    exact ⟨message_of_column? named, begins.column_pos, begins.column_le, begins.isValid⟩
  · have inside := parseChain_inside (α := α) .sum 0 source.toList
    rw [failed] at inside
    exact byteLength_le_of_suffix (Failure.Inside.rest_suffix inside)
  · exact byteLength_le_of_suffix (remainder_suffix accepted)

/-- Columns count bytes: the no-break space that is trimmed off before `y` has two. -/
example : parse (α := Float) "x\u00a0y" = .error (.unexpectedInput 4 ['y']) := by cbv

end Formula

end LeastSquares
