import LeastSquares.Proofs.Formula.Numerals

namespace LeastSquares.Formula

open Text

theorem joins_iff {level : Level} {c : Char} {op : Operator} :
    level.operator? c = some op ↔ Joins level c op := by
  constructor
  · intro means
    unfold Level.operator? at means
    split at means <;> cases means
    exacts [.add, .sub, .mul, .div]
  · intro joins
    cases joins <;> rfl

theorem symbolic_operator (level : Level) : Symbolic level.operator? := by
  intro c op means
  cases joins_iff.mp means <;> simp [IsSymbol]

variable {α : Type}

theorem Parsed.limited_eq_ok {text : List Char} {parsed result : Parsed α text}
    (accepted : parsed.limited = .ok result) : parsed.height ≤ nestingLimit ∧ result = parsed := by
  unfold Parsed.limited at accepted
  split at accepted
  · rename_i low
    cases accepted
    exact ⟨low, rfl⟩
  · cases accepted

variable [Scalar α]

/-- What a parser of a category has read, `depth` constructs inside a text, is derived by the
grammar within the limits. -/
structure Accepts (category : Category) (depth : Nat) {text : List Char}
    (parsed : Parsed α text) : Prop where
  height_eq : parsed.height = parsed.formula.height
  height_le : parsed.height ≤ nestingLimit
  derives : ∃ nesting tokens, Derives category nesting tokens parsed.formula ∧
    depth + nesting ≤ nestingLimit ∧
    ∀ more, Spells parsed.rest more → Spells text (tokens ++ more)

namespace Accepts

variable {category other : Category} {depth : Nat} {text : List Char}

theorem weaken {parsed : Parsed α text} (accepts : Accepts category depth parsed)
    (contains : ∀ nesting tokens (formula : Formula α),
      Derives category nesting tokens formula → Derives other nesting tokens formula) :
    Accepts other depth parsed := by
  obtain ⟨same, low, nesting, tokens, derived, shallow, spelt⟩ := accepts
  exact ⟨same, low, nesting, tokens, contains nesting tokens _ derived, shallow, spelt⟩

theorem behindBlanks {parsed : Parsed α (skipBlanks text)}
    (accepts : Accepts category depth parsed) :
    Accepts category depth (parsed.within (length_skipBlanks_le text)) := by
  obtain ⟨same, low, nesting, tokens, derived, shallow, spelt⟩ := accepts
  exact ⟨same, low, nesting, tokens, derived, shallow,
    fun more spells => spells_skipBlanks.mp (spelt more spells)⟩

end Accepts

structure Encloses (depth : Nat) {text : List Char} (parsed : Parsed α text) : Prop where
  height_eq : parsed.height = parsed.formula.height
  height_le : parsed.height ≤ nestingLimit
  derives : ∃ nesting tokens, Derives (.chain .sum) nesting tokens parsed.formula ∧
    depth + 1 + nesting ≤ nestingLimit ∧
    ∀ more, Spells parsed.rest more → Spells text (.symbol '(' :: (tokens ++ [.symbol ')']) ++ more)

section Rules

variable {depth : Nat} {text : List Char}

theorem Accepts.operation {level : Level} {op : Operator} {soFar : Parsed α text}
    {after : Rest soFar.rest} {operand : Parsed α after.val}
    {shorter : operand.rest.length < text.length}
    (joined : token? level.operator? soFar.rest = some (op, after))
    (left : Accepts (.chain level) depth soFar) (right : Accepts level.operands depth operand)
    (low : max soFar.height operand.height + 1 ≤ nestingLimit) :
    Accepts (.chain level) depth
      (⟨.binary op soFar.formula operand.formula, max soFar.height operand.height + 1,
        operand.rest, shorter⟩ : Parsed α text) := by
  obtain ⟨c, means, extend⟩ := token?_sound (symbolic_operator level) joined
  obtain ⟨deep, before, first, shallow, spelt⟩ := left.derives
  obtain ⟨deepToo, behind, second, shallowToo, speltToo⟩ := right.derives
  refine ⟨by simp only [height, left.height_eq, right.height_eq], low, _, _,
    .operation first (joins_iff.mp means) second, by omega, fun more spells => ?_⟩
  rw [List.append_assoc, List.cons_append]
  exact spelt _ (extend _ (speltToo more spells))

theorem Accepts.minus {after : Rest text} {operand : Parsed α after.val}
    {shorter : operand.rest.length < text.length} (minus : character? '-' text = some after)
    (accepts : Accepts .unary (depth + 1) operand) (low : operand.height + 1 ≤ nestingLimit) :
    Accepts .unary depth
      (⟨.neg operand.formula, operand.height + 1, operand.rest, shorter⟩ : Parsed α text) := by
  obtain ⟨nesting, tokens, derived, shallow, spelt⟩ := accepts.derives
  refine ⟨by simp only [height, accepts.height_eq], low, _, _, .minus derived, by omega,
    fun more spells => ?_⟩
  exact character?_sound (by simp [IsSymbol]) minus (spelt more spells)

theorem Accepts.plus {after : Rest text} {operand : Parsed α after.val}
    (plus : character? '+' text = some after) (accepts : Accepts .unary (depth + 1) operand) :
    Accepts .unary depth (operand.within (Nat.le_of_lt after.property) : Parsed α text) := by
  obtain ⟨same, low, nesting, tokens, derived, shallow, spelt⟩ := accepts
  refine ⟨same, low, _, _, .plus derived, by omega, fun more spells => ?_⟩
  exact character?_sound (by simp [IsSymbol]) plus (spelt more spells)

theorem Accepts.raised {base : Parsed α text} {after : Rest base.rest}
    {exponent : Parsed α after.val} {shorter : exponent.rest.length < text.length}
    (hat : character? '^' base.rest = some after) (left : Accepts .atom depth base)
    (right : Accepts .unary (depth + 1) exponent)
    (low : max base.height exponent.height + 1 ≤ nestingLimit) :
    Accepts .power depth
      (⟨.binary .pow base.formula exponent.formula, max base.height exponent.height + 1,
        exponent.rest, shorter⟩ : Parsed α text) := by
  obtain ⟨deep, before, first, shallow, spelt⟩ := left.derives
  obtain ⟨deepToo, behind, second, shallowToo, speltToo⟩ := right.derives
  refine ⟨by simp only [height, left.height_eq, right.height_eq], low, _, _,
    .raised first second, by omega, fun more spells => ?_⟩
  rw [List.append_assoc, List.cons_append]
  exact spelt _ (character?_sound (by simp [IsSymbol]) hat (speltToo more spells))

theorem Accepts.called {name : List Char} {after : Rest text} {f : Elementary}
    {argument : Parsed α after.val} {shorter : argument.rest.length < text.length}
    (word : identifier? text = some (name, after)) (function : Elementary.ofName? name = some f)
    (encloses : Encloses depth argument) (low : argument.height + 1 ≤ nestingLimit) :
    Accepts .atom depth
      (⟨.call f argument.formula, argument.height + 1, argument.rest, shorter⟩ :
        Parsed α text) := by
  obtain ⟨nesting, tokens, derived, shallow, spelt⟩ := encloses.derives
  refine ⟨by simp only [height, encloses.height_eq], low, _, _,
    .called (function_named.mp function) derived, by omega, fun more spells => ?_⟩
  exact (identifier?_sound word).spells (spelt more spells)

theorem Accepts.name {name : List Char} {after : Rest text} {leaf : Formula α}
    (word : identifier? text = some (name, after)) (found : ofName? name = some leaf)
    (enters : depth ≤ nestingLimit) :
    Accepts .atom depth (⟨leaf, 1, after.val, after.property⟩ : Parsed α text) := by
  have named := leaf_named.mp found
  refine ⟨named.height_eq.symm, by simp [nestingLimit], _, _, .name named, enters,
    fun more spells => ?_⟩
  exact (identifier?_sound word).spells spells

theorem Accepts.number {mantissa : Nat} {exponent : Int} {rest : Rest (skipBlanks text)}
    {shorter : rest.val.length < text.length}
    (numeric : numeral (skipBlanks text) = .decimal mantissa exponent rest)
    (enters : depth ≤ nestingLimit) :
    Accepts .atom depth
      (⟨.number (Scalar.ofDecimal mantissa exponent), 1, rest.val, shorter⟩ : Parsed α text) := by
  refine ⟨rfl, by simp [nestingLimit], _, _, .number mantissa exponent, enters,
    fun more spells => ?_⟩
  exact spells_cons.mpr ⟨_, numeral_sound numeric, spells⟩

theorem Encloses.accepts {parsed : Parsed α text} (encloses : Encloses depth parsed) :
    Accepts .atom depth parsed := by
  obtain ⟨same, low, nesting, tokens, derived, shallow, spelt⟩ := encloses
  exact ⟨same, low, _, _, .enclosed derived, by omega, spelt⟩

theorem Encloses.of_chain {inside : Rest text} {inner : Parsed α inside.val}
    {after : Rest inner.rest} {shorter : after.val.length < text.length}
    (opened : character? '(' text = some inside) (closed : character? ')' inner.rest = some after)
    (accepts : Accepts (.chain .sum) (depth + 1) inner) :
    Encloses depth (⟨inner.formula, inner.height, after.val, shorter⟩ : Parsed α text) := by
  obtain ⟨same, low, nesting, tokens, derived, shallow, spelt⟩ := accepts
  refine ⟨same, low, _, _, derived, shallow, fun more spells => ?_⟩
  have spelled : Spells inside.val (tokens ++ [.symbol ')'] ++ more) := by
    rw [List.append_assoc]
    exact spelt _ (character?_sound (by simp [IsSymbol]) closed spells)
  exact character?_sound (by simp [IsSymbol]) opened spelled

end Rules

mutual

theorem parseChain_sound {level : Level} {depth : Nat} {text : List Char} {parsed : Parsed α text}
    (enters : depth ≤ nestingLimit) (read : parseChain level depth text = .ok parsed) :
    Accepts (.chain level) depth parsed := by
  rw [parseChain] at read
  cases operand : parseOperand (α := α) level depth text with
  | error failure => simp only [operand, reduceCtorEq] at read
  | ok first =>
      simp only [operand] at read
      have accepts := parseOperand_sound enters operand
      exact extendChain_sound enters (accepts.weaken fun _ _ _ => .operand) read
termination_by (text.length, level.rank + 1)
decreasing_by
  · exact .right _ (Nat.lt_succ_self _)
  · exact .left _ _ first.shorter

theorem parseOperand_sound {level : Level} {depth : Nat} {text : List Char}
    {parsed : Parsed α text} (enters : depth ≤ nestingLimit)
    (read : parseOperand level depth text = .ok parsed) :
    Accepts level.operands depth parsed := by
  match level, read with
  | .sum, read =>
      rw [parseOperand.eq_def] at read
      exact parseChain_sound enters read
  | .product, read =>
      rw [parseOperand.eq_def] at read
      exact parseUnary_sound enters read
termination_by (text.length, level.rank)
decreasing_by
  all_goals exact .right _ (by decide)

theorem extendChain_sound {level : Level} {depth : Nat} {text : List Char}
    {soFar parsed : Parsed α text} (enters : depth ≤ nestingLimit)
    (accepts : Accepts (.chain level) depth soFar)
    (read : extendChain level depth soFar = .ok parsed) :
    Accepts (.chain level) depth parsed := by
  rw [extendChain] at read
  cases joined : token? level.operator? soFar.rest with
  | none =>
      simp only [joined] at read
      cases read
      exact accepts
  | some token =>
      obtain ⟨op, after⟩ := token
      simp only [joined] at read
      cases attempt : parseOperand (α := α) level depth after.val with
      | error failure =>
          -- An operator without an operand is given back, so the chain ends before it.
          cases failure <;> simp only [attempt, reduceCtorEq] at read
          cases read
          exact accepts
      | ok operand =>
          simp only [attempt] at read
          split at read
          · rename_i low
            have right := parseOperand_sound enters attempt
            exact extendChain_sound enters (.operation joined accepts right low) read
          · cases read
termination_by (soFar.rest.length, 0)
decreasing_by
  · exact .left _ _ after.property
  · exact .left _ _ (Nat.lt_trans operand.shorter after.property)

theorem parseUnary_sound {depth : Nat} {text : List Char} {parsed : Parsed α text}
    (enters : depth ≤ nestingLimit) (read : parseUnary depth text = .ok parsed) :
    Accepts .unary depth parsed := by
  rw [parseUnary] at read
  cases minus : character? '-' text with
  | some after =>
      simp only [minus] at read
      split at read
      · rename_i room
        cases inner : parseUnary (α := α) (depth + 1) after.val with
        | error failure => simp only [inner, reduceCtorEq] at read
        | ok operand =>
            simp only [inner] at read
            obtain ⟨low, rfl⟩ := Parsed.limited_eq_ok read
            exact .minus minus (parseUnary_sound room inner) low
      · cases read
  | none =>
      simp only [minus] at read
      cases plus : character? '+' text with
      | some after =>
          simp only [plus] at read
          split at read
          · rename_i room
            cases inner : parseUnary (α := α) (depth + 1) after.val with
            | error failure => simp only [inner, reduceCtorEq] at read
            | ok operand =>
                simp only [inner] at read
                cases read
                exact .plus plus (parseUnary_sound room inner)
          · cases read
      | none =>
          simp only [plus] at read
          exact (parsePower_sound enters read).weaken fun _ _ _ => .unsigned
termination_by (text.length, 3)
decreasing_by
  · exact .right _ (by decide)
  · exact .left _ _ after.property
  · exact .left _ _ after.property

theorem parsePower_sound {depth : Nat} {text : List Char} {parsed : Parsed α text}
    (enters : depth ≤ nestingLimit) (read : parsePower depth text = .ok parsed) :
    Accepts .power depth parsed := by
  rw [parsePower] at read
  cases atom : parseAtom (α := α) depth text with
  | error failure => simp only [atom, reduceCtorEq] at read
  | ok base =>
      simp only [atom] at read
      have accepts := parseAtom_sound enters atom
      cases hat : character? '^' base.rest with
      | none =>
          simp only [hat] at read
          cases read
          exact accepts.weaken fun _ _ _ => .bare
      | some after =>
          simp only [hat] at read
          split at read
          · rename_i room
            cases inner : parseUnary (α := α) (depth + 1) after.val with
            | error failure => simp only [inner, reduceCtorEq] at read
            | ok exponent =>
                simp only [inner] at read
                obtain ⟨low, rfl⟩ := Parsed.limited_eq_ok read
                exact .raised hat accepts (parseUnary_sound room inner) low
          · cases read
termination_by (text.length, 2)
decreasing_by
  · exact .right _ (by decide)
  · exact .left _ _ (Nat.lt_trans after.property base.shorter)

theorem parseAtom_sound {depth : Nat} {text : List Char} {parsed : Parsed α text}
    (enters : depth ≤ nestingLimit) (read : parseAtom depth text = .ok parsed) :
    Accepts .atom depth parsed := by
  rw [parseAtom] at read
  cases numeric : numeral (skipBlanks text) with
  | malformed => simp only [numeric, reduceCtorEq] at read
  | decimal mantissa exponent rest =>
      simp only [numeric] at read
      cases read
      exact .number numeric enters
  | absent =>
      simp only [numeric] at read
      cases named : parseNamed (α := α) depth (skipBlanks text) with
      | ok name =>
          simp only [named] at read
          cases read
          exact (parseNamed_sound enters named).behindBlanks
      | error failure =>
          cases failure <;> simp only [named, reduceCtorEq] at read
          cases enclosed : parseParens (α := α) depth (skipBlanks text) with
          | error failure => simp only [enclosed, reduceCtorEq] at read
          | ok inner =>
              simp only [enclosed] at read
              cases read
              exact (parseParens_sound enclosed).accepts.behindBlanks
termination_by (text.length, 1)
decreasing_by
  all_goals exact .right' _ (length_skipBlanks_le text) (by decide)

theorem parseNamed_sound {depth : Nat} {text : List Char} {parsed : Parsed α text}
    (enters : depth ≤ nestingLimit) (read : parseNamed depth text = .ok parsed) :
    Accepts .atom depth parsed := by
  rw [parseNamed] at read
  cases word : identifier? text with
  | none => simp only [word, reduceCtorEq] at read
  | some token =>
      obtain ⟨name, after⟩ := token
      simp only [word] at read
      cases function : Elementary.ofName? name with
      | some f =>
          simp only [function] at read
          cases inner : parseParens (α := α) depth after.val with
          | error failure => simp only [inner, reduceCtorEq] at read
          | ok argument =>
              simp only [inner] at read
              obtain ⟨low, rfl⟩ := Parsed.limited_eq_ok read
              exact .called word function (parseParens_sound inner) low
      | none =>
          simp only [function] at read
          cases leaf : ofName? (α := α) name with
          | none => simp only [leaf, reduceCtorEq] at read
          | some formula =>
              simp only [leaf] at read
              cases read
              exact .name word leaf enters
termination_by (text.length, 0)
decreasing_by exact .left _ _ after.property

theorem parseParens_sound {depth : Nat} {text : List Char} {parsed : Parsed α text}
    (read : parseParens depth text = .ok parsed) :
    Encloses depth parsed := by
  rw [parseParens] at read
  cases opened : character? '(' text with
  | none => simp only [opened, reduceCtorEq] at read
  | some inside =>
      simp only [opened] at read
      split at read
      · rename_i room
        cases chain : parseChain (α := α) .sum (depth + 1) inside.val with
        | error failure => simp only [chain, reduceCtorEq] at read
        | ok inner =>
            simp only [chain] at read
            cases closed : character? ')' inner.rest with
            | none => simp only [closed, reduceCtorEq] at read
            | some after =>
                simp only [closed] at read
                cases read
                exact .of_chain opened closed (parseChain_sound room chain)
      · cases read
termination_by (text.length, 0)
decreasing_by exact .left _ _ inside.property

end

end LeastSquares.Formula
