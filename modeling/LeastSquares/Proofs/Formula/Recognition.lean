import LeastSquares.Formula.Read
import LeastSquares.Proofs.Formula.Acceptance
import Mathlib.Data.List.TakeWhile

namespace LeastSquares.Formula

open Text

variable {α : Type} [Scalar α]

/-- The operators that would go on with a text of a category. -/
def Category.tighter : Category → List Char
  | chain .sum => ['^', '*', '/']
  | chain .product | unary | power => ['^']
  | atom => []

def Category.Closes (category : Category) (more : List Token) : Prop :=
  ∀ c ∈ category.tighter, more.head? ≠ some (.symbol c)

structure Leaves {text : List Char} (parsed : Parsed α text) (formula : Formula α)
    (more : List Token) : Prop where
  formula_eq : parsed.formula = formula
  height_eq : parsed.height = formula.height
  spells : Spells parsed.rest more

/-- The parser of a category reads a formula. A chain may be read without having come to its end. -/
def Recognizes : Category → Nat → List Char → Formula α → List Token → Prop
  | .chain level, depth, text, formula, more => ∃ parsed : Parsed α text,
      parseChain level depth text = extendChain level depth parsed ∧ Leaves parsed formula more
  | .unary, depth, text, formula, more => ∃ parsed : Parsed α text,
      parseUnary depth text = .ok parsed ∧ Leaves parsed formula more
  | .power, depth, text, formula, more => ∃ parsed : Parsed α text,
      parsePower depth text = .ok parsed ∧ Leaves parsed formula more
  | .atom, depth, text, formula, more => ∃ parsed : Parsed α text,
      parseAtom depth text = .ok parsed ∧ Leaves parsed formula more

theorem closes_symbol {level : Level} {c : Char} {op : Operator} (joins : Joins level c op)
    (more : List Token) : (Category.chain level).Closes (.symbol c :: more) := by
  intro d member same
  cases same
  cases joins <;> exact absurd member (by decide)

theorem Category.Closes.operands {level : Level} {more : List Token}
    (closes : (Category.chain level).Closes more) : level.operands.Closes more := by
  intro c member
  refine closes c ?_
  cases level with
  | sum => exact List.mem_cons.mpr (.inl (List.mem_singleton.mp member))
  | product => exact member

theorem closes_parenthesis (more : List Token) :
    (Category.chain .sum).Closes (.symbol ')' :: more) := by
  intro c member same
  cases same
  exact absurd member (by decide)

theorem Leaves.extendChain_eq {text : List Char} {parsed : Parsed α text} {formula : Formula α}
    {more : List Token} (leaves : Leaves parsed formula more) (level : Level) (depth : Nat)
    (ends : ∀ c op, Joins level c op → more.head? ≠ some (.symbol c)) :
    extendChain level depth parsed = .ok parsed := by
  have none := token?_eq_none (symbolic_operator level) leaves.spells
    fun c op means => ends c op (joins_iff.mp means)
  rw [extendChain]
  simp only [none]

theorem Recognizes.operand {level : Level} {depth : Nat} {text : List Char} {formula : Formula α}
    {more : List Token} (recognized : Recognizes level.operands depth text formula more)
    (closes : (Category.chain level).Closes more) :
    ∃ parsed : Parsed α text, parseOperand level depth text = .ok parsed ∧
      Leaves parsed formula more := by
  rw [parseOperand.eq_def]
  cases level with
  | sum =>
      obtain ⟨parsed, read, leaves⟩ := recognized
      refine ⟨parsed, read.trans (leaves.extendChain_eq .product depth fun c op joins => ?_), leaves⟩
      cases joins <;> exact closes _ (by simp [Category.tighter])
  | product => exact recognized

theorem Leaves.extend {level : Level} {depth : Nat} {text : List Char} {c : Char} {op : Operator}
    {soFar : Parsed α text} {left right : Formula α} {tokens more : List Token}
    (leaves : Leaves soFar left (.symbol c :: tokens)) (joins : Joins level c op)
    (second : ∀ {after : List Char}, Spells after tokens → ∃ operand : Parsed α after,
      parseOperand level depth after = .ok operand ∧ Leaves operand right more)
    (low : (binary op left right).height ≤ nestingLimit) :
    ∃ longer : Parsed α text, extendChain level depth soFar = extendChain level depth longer ∧
      Leaves longer (binary op left right) more := by
  obtain ⟨after, joined, spells⟩ := token?_complete leaves.spells (joins_iff.mpr joins)
  obtain ⟨operand, read, leavesToo⟩ := second spells
  rw [height, ← leaves.height_eq, ← leavesToo.height_eq] at low
  rw [extendChain]
  simp only [joined, read, if_pos low]
  refine ⟨_, rfl, ?_, ?_, leavesToo.spells⟩
  · simp only [leaves.formula_eq, leavesToo.formula_eq]
  · simp only [height, leaves.height_eq, leavesToo.height_eq]

theorem parseParens_complete {depth nesting : Nat} {text : List Char} {formula : Formula α}
    {tokens more : List Token} (room : depth + (nesting + 1) ≤ nestingLimit)
    (inner : ∀ {inside : List Char},
      Spells inside (tokens ++ .symbol ')' :: more) →
        Recognizes (.chain .sum) (depth + 1) inside formula (.symbol ')' :: more))
    (spells : Spells text (.symbol '(' :: (tokens ++ [.symbol ')']) ++ more)) :
    ∃ parsed : Parsed α text, parseParens depth text = .ok parsed ∧
      Leaves parsed formula more := by
  rw [List.cons_append, List.append_assoc, List.singleton_append] at spells
  obtain ⟨inside, opened, spelled⟩ := character?_complete spells
  obtain ⟨parsed, read, leaves⟩ := inner spelled
  have ends := leaves.extendChain_eq .sum (depth + 1) fun c op joins => by
    cases joins <;> simp
  obtain ⟨after, closed, left⟩ := character?_complete leaves.spells
  have enters : depth < nestingLimit := by omega
  rw [parseParens]
  simp only [opened, if_pos enters, read, ends, closed]
  exact ⟨_, rfl, leaves.formula_eq, leaves.height_eq, left⟩

section Constructors

variable {depth : Nat} {text : List Char} {formula : Formula α} {tokens more : List Token}

theorem Recognizes.minus (spells : Spells text (.symbol '-' :: tokens))
    (enters : depth < nestingLimit) (low : (neg formula).height ≤ nestingLimit)
    (inner : ∀ {after : List Char}, Spells after tokens →
      Recognizes .unary (depth + 1) after formula more) :
    Recognizes .unary depth text (neg formula) more := by
  obtain ⟨after, accepted, left⟩ := character?_complete spells
  obtain ⟨operand, read, leaves⟩ := inner left
  rw [height, ← leaves.height_eq] at low
  simp only [Recognizes]
  rw [parseUnary]
  simp only [accepted, if_pos enters, read, Parsed.limited, if_pos low]
  refine ⟨_, rfl, ?_, ?_, leaves.spells⟩
  · simp only [leaves.formula_eq]
  · simp only [height, leaves.height_eq]

theorem Recognizes.plus (spells : Spells text (.symbol '+' :: tokens))
    (enters : depth < nestingLimit)
    (inner : ∀ {after : List Char}, Spells after tokens →
      Recognizes .unary (depth + 1) after formula more) :
    Recognizes .unary depth text formula more := by
  have noMinus : character? '-' text = none :=
    character?_eq_none (by simp [IsSymbol]) spells (by simp)
  obtain ⟨after, accepted, left⟩ := character?_complete spells
  obtain ⟨operand, read, leaves⟩ := inner left
  simp only [Recognizes]
  rw [parseUnary]
  simp only [noMinus, accepted, if_pos enters, read]
  exact ⟨_, rfl, leaves.formula_eq, leaves.height_eq, leaves.spells⟩

theorem Recognizes.unsigned (spells : Spells text tokens)
    (notMinus : tokens.head? ≠ some (.symbol '-')) (notPlus : tokens.head? ≠ some (.symbol '+'))
    (recognized : Recognizes .power depth text formula more) :
    Recognizes .unary depth text formula more := by
  have noMinus : character? '-' text = none :=
    character?_eq_none (by simp [IsSymbol]) spells notMinus
  have noPlus : character? '+' text = none :=
    character?_eq_none (by simp [IsSymbol]) spells notPlus
  obtain ⟨parsed, read, leaves⟩ := recognized
  refine ⟨parsed, ?_, leaves⟩
  rw [parseUnary]
  simp only [noMinus, noPlus, read]

theorem Recognizes.raised {exponent : Formula α} (enters : depth < nestingLimit)
    (low : (binary .pow formula exponent).height ≤ nestingLimit)
    (first : Recognizes .atom depth text formula (.symbol '^' :: tokens))
    (second : ∀ {after : List Char}, Spells after tokens →
      Recognizes .unary (depth + 1) after exponent more) :
    Recognizes .power depth text (binary .pow formula exponent) more := by
  obtain ⟨left, read, leaves⟩ := first
  obtain ⟨after, accepted, spells⟩ := character?_complete leaves.spells
  obtain ⟨right, readToo, leavesToo⟩ := second spells
  rw [height, ← leaves.height_eq, ← leavesToo.height_eq] at low
  simp only [Recognizes]
  rw [parsePower]
  simp only [read, accepted, if_pos enters, readToo, Parsed.limited, if_pos low]
  refine ⟨_, rfl, ?_, ?_, leavesToo.spells⟩
  · simp only [leaves.formula_eq, leavesToo.formula_eq]
  · simp only [height, leaves.height_eq, leavesToo.height_eq]

theorem Recognizes.bare (closes : Category.power.Closes more)
    (recognized : Recognizes .atom depth text formula more) :
    Recognizes .power depth text formula more := by
  obtain ⟨parsed, read, leaves⟩ := recognized
  have noHat : character? '^' parsed.rest = none :=
    character?_eq_none (by simp [IsSymbol]) leaves.spells (closes '^' (List.mem_singleton_self _))
  refine ⟨parsed, ?_, leaves⟩
  rw [parsePower]
  simp only [read, noHat]

theorem Recognizes.number {mantissa : Nat} {exponent : Int}
    (spells : Spells text (.number mantissa exponent :: more)) :
    Recognizes .atom depth text (number (Scalar.ofDecimal mantissa exponent) : Formula α) more := by
  obtain ⟨rest, read, left⟩ := spells_cons.mp spells
  obtain ⟨after, numeric, rfl⟩ := numeral_complete read
  simp only [Recognizes]
  rw [parseAtom]
  simp only [numeric]
  exact ⟨_, rfl, rfl, rfl, left⟩

theorem Recognizes.name {name : List Char} (spells : Spells text (.word name :: more))
    (named : Names name formula) : Recognizes .atom depth text formula more := by
  obtain ⟨rest, read, left⟩ := spells_cons.mp spells
  obtain ⟨after, word, rfl⟩ := identifier?_complete read
  have absent := read.numeral_eq_absent fun _ _ => by simp
  simp only [Recognizes]
  rw [parseAtom]
  simp only [absent]
  rw [parseNamed]
  simp only [word, named.not_function, leaf_named.mpr named]
  exact ⟨_, rfl, rfl, named.height_eq.symm, left⟩

theorem Recognizes.called {name : List Char} {f : Elementary}
    (spells : Spells text (.word name :: tokens)) (calls : Calls name f)
    (low : (call f formula).height ≤ nestingLimit)
    (inner : ∀ {after : List Char}, Spells after tokens → ∃ parsed : Parsed α after,
      parseParens depth after = .ok parsed ∧ Leaves parsed formula more) :
    Recognizes .atom depth text (call f formula) more := by
  obtain ⟨rest, read, left⟩ := spells_cons.mp spells
  obtain ⟨after, word, rfl⟩ := identifier?_complete read
  have absent := read.numeral_eq_absent fun _ _ => by simp
  obtain ⟨parsed, enclosed, leaves⟩ := inner left
  rw [height, ← leaves.height_eq] at low
  simp only [Recognizes]
  rw [parseAtom]
  simp only [absent]
  rw [parseNamed]
  simp only [word, function_named.mpr calls, enclosed, Parsed.limited, if_pos low]
  refine ⟨_, rfl, ?_, ?_, leaves.spells⟩
  · simp only [Parsed.within, leaves.formula_eq]
  · simp only [Parsed.within, height, leaves.height_eq]

theorem Recognizes.enclosed (spells : Spells text (.symbol '(' :: tokens))
    (inner : ∀ {after : List Char}, Spells after (.symbol '(' :: tokens) →
      ∃ parsed : Parsed α after, parseParens depth after = .ok parsed ∧ Leaves parsed formula more) :
    Recognizes .atom depth text formula more := by
  obtain ⟨rest, read, left⟩ := spells_cons.mp spells
  have absent := read.numeral_eq_absent fun _ _ => by simp
  obtain ⟨parsed, enclosed, leaves⟩ := inner (spells_skipBlanks.mpr spells)
  simp only [Recognizes]
  rw [parseAtom]
  simp only [absent]
  rw [parseNamed]
  simp only [read.identifier?_eq_none, enclosed]
  exact ⟨_, rfl, leaves.formula_eq, leaves.height_eq, leaves.spells⟩

end Constructors

theorem Derives.head_of_atom {nesting : Nat} {tokens : List Token} {formula : Formula α}
    (derived : Derives .atom nesting tokens formula) :
    ∃ token others, tokens = token :: others ∧ token ≠ .symbol '-' ∧ token ≠ .symbol '+' := by
  cases derived with
  | number => exact ⟨_, _, rfl, by simp, by simp⟩
  | name => exact ⟨_, _, rfl, by simp, by simp⟩
  | called => exact ⟨_, _, rfl, by simp, by simp⟩
  | enclosed => exact ⟨_, _, rfl, by simp, by simp⟩

theorem Derives.head_of_power {nesting : Nat} {tokens : List Token} {formula : Formula α}
    (derived : Derives .power nesting tokens formula) :
    ∃ token others, tokens = token :: others ∧ token ≠ .symbol '-' ∧ token ≠ .symbol '+' := by
  cases derived with
  | raised first second =>
      obtain ⟨token, others, rfl, notMinus, notPlus⟩ := first.head_of_atom
      exact ⟨token, _, rfl, notMinus, notPlus⟩
  | bare inner => exact inner.head_of_atom

theorem Derives.ne_nil {category : Category} {nesting : Nat} {tokens : List Token}
    {formula : Formula α} (derived : Derives category nesting tokens formula) : tokens ≠ [] := by
  induction derived with
  | operand inner ih | unsigned inner ih | bare inner ih => exact ih
  | operation | raised => simp
  | minus | plus | number | name | called | enclosed => exact List.cons_ne_nil _ _

theorem Derives.recognized {category : Category} {nesting : Nat} {tokens : List Token}
    {formula : Formula α} (derived : Derives category nesting tokens formula) {depth : Nat}
    {text : List Char} {more : List Token} (shallow : depth + nesting ≤ nestingLimit)
    (low : formula.height ≤ nestingLimit) (closes : category.Closes more)
    (spells : Spells text (tokens ++ more)) : Recognizes category depth text formula more := by
  induction derived generalizing depth text more with
  | operand inner ih =>
      obtain ⟨first, read, leaves⟩ := (ih shallow low closes.operands spells).operand closes
      refine ⟨first, ?_, leaves⟩
      rw [parseChain]
      simp only [read]
  | @operation level deep deepToo before behind c op left right first joins second ih ihToo =>
      have lower := low
      simp only [height] at lower
      have shallowFirst : depth + deep ≤ nestingLimit := by omega
      have shallowSecond : depth + deepToo ≤ nestingLimit := by omega
      rw [List.append_assoc, List.cons_append] at spells
      obtain ⟨soFar, read, leaves⟩ := ih shallowFirst (by omega) (closes_symbol joins _) spells
      obtain ⟨longer, readToo, leavesToo⟩ := leaves.extend joins
        (fun spelled => (ihToo shallowSecond (by omega) closes.operands spelled).operand closes) low
      exact ⟨longer, read.trans readToo, leavesToo⟩
  | minus inner ih =>
      exact .minus spells (by omega) low fun spelled =>
        ih (by omega) (Nat.le_of_succ_le low) closes spelled
  | plus inner ih =>
      exact .plus spells (by omega) fun spelled => ih (by omega) low closes spelled
  | unsigned inner ih =>
      obtain ⟨token, others, rfl, notMinus, notPlus⟩ := inner.head_of_power
      exact .unsigned spells (by simpa using notMinus) (by simpa using notPlus)
        (ih shallow low closes spells)
  | @raised deep deepToo before behind base exponent first second ih ihToo =>
      have lower := low
      simp only [height] at lower
      rw [List.append_assoc, List.cons_append] at spells
      exact .raised (by omega) low
        (ih (by omega) (by omega) (fun c member => by cases member) spells)
        fun spelled => ihToo (by omega) (by omega) closes spelled
  | bare inner ih =>
      exact .bare closes (ih shallow low (fun c member => by cases member) spells)
  | number => exact .number spells
  | name named => exact .name spells named
  | called calls inner ih =>
      exact .called spells calls low fun left => parseParens_complete shallow
        (fun spelled => ih (by omega) (Nat.le_of_succ_le low) (closes_parenthesis _) spelled) left
  | enclosed inner ih =>
      exact .enclosed spells fun left => parseParens_complete shallow
        (fun spelled => ih (by omega) low (closes_parenthesis _) spelled) left

/-! ## Whole texts -/

theorem trimStart_eq_nil {text : List Char} :
    trimStart text = [] ↔ ∀ c ∈ text, isWhiteSpace c = true :=
  List.dropWhile_eq_nil_iff

theorem isWhiteSpace_of_trim_eq_nil {text : List Char} (blank : trim text = []) {c : Char}
    (member : c ∈ text) : isWhiteSpace c = true := by
  have white := trimStart_eq_nil.mp (List.reverse_eq_nil_iff.mp blank)
  rw [← List.takeWhile_append_dropWhile (p := isWhiteSpace) (l := text), List.mem_append] at member
  rcases member with before | behind
  · exact mem_takeWhile before
  · exact white c (List.mem_reverse.mpr behind)

theorem Spells.trim_ne_nil {text : List Char} {token : Token} {tokens : List Token}
    (spells : Spells text (token :: tokens)) : trim text ≠ [] := by
  intro blank
  obtain ⟨rest, read, -⟩ := spells_cons.mp spells
  obtain ⟨c, tail, start, begins⟩ := read.begins
  have member : c ∈ skipBlanks text := start ▸ List.mem_cons_self
  have white := isWhiteSpace_of_trim_eq_nil blank ((List.dropWhile_sublist _).subset member)
  rw [begins.not_isWhiteSpace] at white
  cases white

theorem sentence_of_parse {source : String} {formula : Formula α}
    (read : parse source = .ok formula) : Sentence source formula := by
  unfold parse ofChars at read
  split at read
  · cases read
  · split at read
    · cases read
    · rename_i parsed chain
      simp only at read
      split at read
      · rename_i ended
        cases read
        obtain ⟨same, low, nesting, tokens, derived, shallow, spelt⟩ :=
          parseChain_sound (Nat.zero_le _) chain
        have white := trimStart_eq_nil.mp (List.isEmpty_iff.mp ended)
        have spells := spelt [] (.done white)
        rw [List.append_nil] at spells
        exact ⟨tokens, nesting, spells, derived, by omega, same ▸ low⟩
      · cases read

theorem parse_of_sentence {source : String} {formula : Formula α}
    (sentence : Sentence source formula) : parse source = .ok formula := by
  obtain ⟨tokens, nesting, spells, derived, shallow, low⟩ := sentence
  obtain ⟨token, others, rfl⟩ := List.exists_cons_of_ne_nil derived.ne_nil
  have visible := spells.trim_ne_nil
  have shallowHere : 0 + nesting ≤ nestingLimit := by omega
  rw [← List.append_nil (token :: others)] at spells
  obtain ⟨parsed, read, leaves⟩ := derived.recognized shallowHere low
    (fun c member => by simp) spells
  have ends := leaves.extendChain_eq .sum 0 fun c op joins => by simp
  have ended := trimStart_eq_nil.mpr (spells_nil.mp leaves.spells)
  simp only [parse, ofChars, List.isEmpty_iff, if_neg visible, read, ends, if_pos ended,
    leaves.formula_eq]

/-- Parsing accepts exactly the sentences of the grammar and refuses every other text, and a text is
a sentence for one formula at most. -/
theorem parse_iff_sentence (source : String) :
    (∀ formula : Formula α, parse source = .ok formula ↔ Sentence source formula) ∧
    ((∀ formula : Formula α, ¬ Sentence source formula) →
      ∃ cause, parse (α := α) source = .error cause) ∧
    (∀ first second : Formula α, Sentence source first → Sentence source second →
      first = second) := by
  refine ⟨fun formula => ⟨sentence_of_parse, parse_of_sentence⟩, fun none => ?_,
    fun first second sentence sentenceToo => ?_⟩
  · cases read : parse (α := α) source with
    | error cause => exact ⟨cause, rfl⟩
    | ok formula => exact absurd (sentence_of_parse read) (none formula)
  · have same := (parse_of_sentence sentence).symm.trans (parse_of_sentence sentenceToo)
    cases same
    rfl

end LeastSquares.Formula
