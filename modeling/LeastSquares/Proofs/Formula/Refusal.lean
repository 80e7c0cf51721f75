import LeastSquares.Proofs.Formula.Recognition

/-!
# What is nested too deeply

A text that the grammar derives is read within the limits. Beyond them the parser follows the
derivation up to the first construct that passes a limit and refuses the text there: this failure is
final, so no alternative is tried and no operator is given back.
-/

namespace LeastSquares.Formula

open Text

variable (α : Type) [Scalar α]

def Exceeds : Category → Nat → List Char → Prop
  | .chain level, depth, text => ∃ rest, parseChain (α := α) level depth text = .error (.tooDeep rest)
  | .unary, depth, text => ∃ rest, parseUnary (α := α) depth text = .error (.tooDeep rest)
  | .power, depth, text => ∃ rest, parsePower (α := α) depth text = .error (.tooDeep rest)
  | .atom, depth, text => ∃ rest, parseAtom (α := α) depth text = .error (.tooDeep rest)

variable {α}

theorem Exceeds.operand {level : Level} {depth : Nat} {text : List Char}
    (exceeds : Exceeds α level.operands depth text) :
    ∃ rest, parseOperand (α := α) level depth text = .error (.tooDeep rest) := by
  rw [parseOperand.eq_def]
  cases level with
  | sum => exact exceeds
  | product => exact exceeds

section Constructors

variable {depth : Nat} {text : List Char} {formula : Formula α} {tokens more : List Token}

theorem Exceeds.chain {level : Level} (exceeds : Exceeds α level.operands depth text) :
    Exceeds α (.chain level) depth text := by
  obtain ⟨rest, refused⟩ := exceeds.operand
  refine ⟨rest, ?_⟩
  rw [parseChain]
  simp only [refused]

variable (more) in
theorem Leaves.exceeds {level : Level} {c : Char} {op : Operator} {left : Formula α}
    {soFar : Parsed α text} (leaves : Leaves soFar left (.symbol c :: tokens))
    (joins : Joins level c op)
    (second : ∀ {after : List Char}, Spells after tokens →
      Exceeds α level.operands depth after ∨ ∃ (operand : Parsed α after) (right : Formula α),
        parseOperand level depth after = .ok operand ∧ Leaves operand right more ∧
          nestingLimit < (binary op left right).height) :
    ∃ rest, extendChain level depth soFar = .error (.tooDeep rest) := by
  obtain ⟨after, joined, spells⟩ := token?_complete leaves.spells (joins_iff.mpr joins)
  rw [extendChain]
  rcases second spells with exceeds | ⟨operand, right, read, leavesToo, high⟩
  · obtain ⟨rest, refused⟩ := exceeds.operand
    simp only [joined, refused]
    exact ⟨rest, rfl⟩
  · rw [height, ← leaves.height_eq, ← leavesToo.height_eq] at high
    simp only [joined, read, if_neg (Nat.not_le_of_lt high)]
    exact ⟨_, rfl⟩

variable (formula more) in
theorem Exceeds.minus (spells : Spells text (.symbol '-' :: tokens))
    (inner : ∀ {after : List Char}, depth < nestingLimit → Spells after tokens →
      Exceeds α .unary (depth + 1) after ∨
        Recognizes .unary (depth + 1) after formula more ∧ nestingLimit < (neg formula).height) :
    Exceeds α .unary depth text := by
  obtain ⟨after, accepted, left⟩ := character?_complete spells
  simp only [Exceeds]
  rw [parseUnary]
  simp only [accepted]
  by_cases enters : depth < nestingLimit
  · simp only [if_pos enters]
    rcases inner enters left with ⟨rest, refused⟩ | ⟨⟨operand, read, leaves⟩, high⟩
    · simp only [refused]
      exact ⟨rest, rfl⟩
    · rw [height, ← leaves.height_eq] at high
      simp only [read, Parsed.limited, if_neg (Nat.not_le_of_lt high)]
      exact ⟨_, rfl⟩
  · simp only [if_neg enters]
    exact ⟨_, rfl⟩

theorem Exceeds.plus (spells : Spells text (.symbol '+' :: tokens))
    (inner : ∀ {after : List Char}, depth < nestingLimit → Spells after tokens →
      Exceeds α .unary (depth + 1) after) :
    Exceeds α .unary depth text := by
  have noMinus : character? '-' text = none :=
    character?_eq_none (by simp [IsSymbol]) spells (by simp)
  obtain ⟨after, accepted, left⟩ := character?_complete spells
  simp only [Exceeds]
  rw [parseUnary]
  simp only [noMinus, accepted]
  by_cases enters : depth < nestingLimit
  · obtain ⟨rest, refused⟩ := inner enters left
    simp only [if_pos enters, refused]
    exact ⟨rest, rfl⟩
  · simp only [if_neg enters]
    exact ⟨_, rfl⟩

theorem Exceeds.unsigned (spells : Spells text tokens)
    (notMinus : tokens.head? ≠ some (.symbol '-')) (notPlus : tokens.head? ≠ some (.symbol '+'))
    (exceeds : Exceeds α .power depth text) : Exceeds α .unary depth text := by
  have noMinus : character? '-' text = none :=
    character?_eq_none (by simp [IsSymbol]) spells notMinus
  have noPlus : character? '+' text = none :=
    character?_eq_none (by simp [IsSymbol]) spells notPlus
  obtain ⟨rest, refused⟩ := exceeds
  refine ⟨rest, ?_⟩
  rw [parseUnary]
  simp only [noMinus, noPlus, refused]

theorem Exceeds.power (exceeds : Exceeds α .atom depth text) : Exceeds α .power depth text := by
  obtain ⟨rest, refused⟩ := exceeds
  refine ⟨rest, ?_⟩
  rw [parsePower]
  simp only [refused]

variable (more) in
theorem Exceeds.raised (exponent : Formula α)
    (first : Recognizes .atom depth text formula (.symbol '^' :: tokens))
    (second : ∀ {after : List Char}, depth < nestingLimit → Spells after tokens →
      Exceeds α .unary (depth + 1) after ∨ Recognizes .unary (depth + 1) after exponent more ∧
        nestingLimit < (binary .pow formula exponent).height) :
    Exceeds α .power depth text := by
  obtain ⟨left, read, leaves⟩ := first
  obtain ⟨after, accepted, spells⟩ := character?_complete leaves.spells
  simp only [Exceeds]
  rw [parsePower]
  simp only [read, accepted]
  by_cases enters : depth < nestingLimit
  · simp only [if_pos enters]
    rcases second enters spells with ⟨rest, refused⟩ | ⟨⟨right, readToo, leavesToo⟩, high⟩
    · simp only [refused]
      exact ⟨rest, rfl⟩
    · rw [height, ← leaves.height_eq, ← leavesToo.height_eq] at high
      simp only [readToo, Parsed.limited, if_neg (Nat.not_le_of_lt high)]
      exact ⟨_, rfl⟩
  · simp only [if_neg enters]
    exact ⟨_, rfl⟩

theorem parseParens_exceeds
    (spells : Spells text (.symbol '(' :: (tokens ++ [.symbol ')']) ++ more))
    (inner : ∀ {inside : List Char}, depth < nestingLimit →
      Spells inside (tokens ++ .symbol ')' :: more) → Exceeds α (.chain .sum) (depth + 1) inside) :
    ∃ rest, parseParens (α := α) depth text = .error (.tooDeep rest) := by
  rw [List.cons_append, List.append_assoc, List.singleton_append] at spells
  obtain ⟨inside, opened, spelled⟩ := character?_complete spells
  rw [parseParens]
  simp only [opened]
  by_cases enters : depth < nestingLimit
  · obtain ⟨rest, refused⟩ := inner enters spelled
    simp only [if_pos enters, refused]
    exact ⟨rest, rfl⟩
  · simp only [if_neg enters]
    exact ⟨_, rfl⟩

variable (formula more) in
theorem Exceeds.called {name : List Char} {f : Elementary}
    (spells : Spells text (.word name :: tokens)) (calls : Calls name f)
    (inner : ∀ {after : List Char}, Spells after tokens →
      (∃ rest, parseParens (α := α) depth after = .error (.tooDeep rest)) ∨
        (∃ parsed : Parsed α after,
          parseParens depth after = .ok parsed ∧ Leaves parsed formula more) ∧
          nestingLimit < (call f formula).height) :
    Exceeds α .atom depth text := by
  obtain ⟨rest, read, left⟩ := spells_cons.mp spells
  obtain ⟨after, word, rfl⟩ := identifier?_complete read
  have absent := read.numeral_eq_absent fun _ _ => by simp
  simp only [Exceeds]
  rw [parseAtom]
  simp only [absent]
  rw [parseNamed]
  simp only [word, function_named.mpr calls]
  rcases inner left with ⟨rest, refused⟩ | ⟨⟨parsed, enclosed, leaves⟩, high⟩
  · simp only [refused]
    exact ⟨rest, rfl⟩
  · rw [height, ← leaves.height_eq] at high
    simp only [enclosed, Parsed.limited, if_neg (Nat.not_le_of_lt high)]
    exact ⟨_, rfl⟩

theorem Exceeds.enclosed (spells : Spells text (.symbol '(' :: tokens))
    (inner : ∀ {after : List Char}, Spells after (.symbol '(' :: tokens) →
      ∃ rest, parseParens (α := α) depth after = .error (.tooDeep rest)) :
    Exceeds α .atom depth text := by
  obtain ⟨rest, read, left⟩ := spells_cons.mp spells
  have absent := read.numeral_eq_absent fun _ _ => by simp
  obtain ⟨rest, refused⟩ := inner (spells_skipBlanks.mpr spells)
  refine ⟨rest, ?_⟩
  rw [parseAtom]
  simp only [absent]
  rw [parseNamed]
  simp only [read.identifier?_eq_none, refused]

end Constructors

theorem Derives.exceeds_or_recognized {category : Category} {nesting : Nat} {tokens : List Token}
    {formula : Formula α} (derived : Derives category nesting tokens formula) {depth : Nat}
    {text : List Char} {more : List Token} (closes : category.Closes more)
    (spells : Spells text (tokens ++ more))
    (exceeds : nestingLimit < depth + nesting ∨ nestingLimit < formula.height →
      Exceeds α category depth text) :
    Exceeds α category depth text ∨ Recognizes category depth text formula more ∧
      depth + nesting ≤ nestingLimit ∧ formula.height ≤ nestingLimit := by
  by_cases within : depth + nesting ≤ nestingLimit ∧ formula.height ≤ nestingLimit
  · exact .inr ⟨derived.recognized within.1 within.2 closes spells, within⟩
  · exact .inl (exceeds (by omega))

theorem Derives.exceeds {category : Category} {nesting : Nat} {tokens : List Token}
    {formula : Formula α} (derived : Derives category nesting tokens formula) {depth : Nat}
    {text : List Char} {more : List Token} (enters : depth ≤ nestingLimit)
    (beyond : nestingLimit < depth + nesting ∨ nestingLimit < formula.height)
    (closes : category.Closes more) (spells : Spells text (tokens ++ more)) :
    Exceeds α category depth text := by
  induction derived generalizing depth text more with
  | operand inner ih => exact .chain (ih enters beyond closes.operands spells)
  | @operation level deep deepToo before behind c op left right first joins second ih ihToo =>
      rw [List.append_assoc, List.cons_append] at spells
      have closed := closes_symbol joins (behind ++ more)
      rcases first.exceeds_or_recognized closed spells (ih enters · closed spells) with
        exceeds | ⟨⟨soFar, read, leaves⟩, shallow, low⟩
      · exact exceeds
      · have second {after : List Char} (spelled : Spells after (behind ++ more)) :=
          second.exceeds_or_recognized closes.operands spelled
            (ihToo enters · closes.operands spelled)
        obtain ⟨rest, refused⟩ := leaves.exceeds more joins fun spelled => by
          rcases second spelled with exceeds | ⟨recognized, shallowToo, lowToo⟩
          · exact .inl exceeds
          · obtain ⟨operand, read, leaves⟩ := recognized.operand closes
            refine .inr ⟨operand, right, read, leaves, ?_⟩
            simp only [height] at beyond ⊢
            omega
        exact ⟨rest, read.trans refused⟩
  | @minus nesting tokens formula inner ih =>
      refine .minus formula more spells fun enters spelled => ?_
      rcases inner.exceeds_or_recognized closes spelled (ih enters · closes spelled) with
        exceeds | ⟨recognized, shallow, low⟩
      · exact .inl exceeds
      · refine .inr ⟨recognized, ?_⟩
        simp only [height] at beyond ⊢
        omega
  | plus inner ih =>
      exact .plus spells fun enters spelled => ih enters (by omega) closes spelled
  | unsigned inner ih =>
      obtain ⟨token, others, rfl, notMinus, notPlus⟩ := inner.head_of_power
      exact .unsigned spells (by simpa using notMinus) (by simpa using notPlus)
        (ih enters beyond closes spells)
  | @raised deep deepToo before behind base exponent first second ih ihToo =>
      rw [List.append_assoc, List.cons_append] at spells
      have closed : Category.atom.Closes (.symbol '^' :: (behind ++ more)) :=
        fun c member => by cases member
      rcases first.exceeds_or_recognized closed spells (ih enters · closed spells) with
        exceeds | ⟨recognized, shallow, low⟩
      · exact .power exceeds
      · refine .raised more exponent recognized fun enters spelled => ?_
        rcases second.exceeds_or_recognized closes spelled (ihToo enters · closes spelled) with
          exceeds | ⟨recognized, shallowToo, lowToo⟩
        · exact .inl exceeds
        · refine .inr ⟨recognized, ?_⟩
          simp only [height] at beyond ⊢
          omega
  | bare inner ih => exact .power (ih enters beyond (fun c member => by cases member) spells)
  | number =>
      simp only [height, nestingLimit] at beyond enters
      omega
  | name named =>
      rw [named.height_eq] at beyond
      simp only [nestingLimit] at beyond enters
      omega
  | @called nesting name f tokens argument calls inner ih =>
      have closed := closes_parenthesis more
      refine .called argument more spells calls fun spelled => ?_
      by_cases within : depth + 1 + nesting ≤ nestingLimit ∧ argument.height ≤ nestingLimit
      · have room : depth + (nesting + 1) ≤ nestingLimit := by omega
        refine .inr ⟨parseParens_complete room
          (fun spelled => inner.recognized within.1 within.2 closed spelled) spelled, ?_⟩
        simp only [height] at beyond ⊢
        omega
      · exact .inl (parseParens_exceeds spelled fun enters spelled =>
          ih enters (by simp only [height] at beyond; omega) closed spelled)
  | enclosed inner ih =>
      have closed := closes_parenthesis more
      exact .enclosed spells fun spelled => parseParens_exceeds spelled fun enters spelled =>
        ih enters (by omega) closed spelled

theorem parse_of_deep {source : String} {tokens : List Token} {nesting : Nat} {formula : Formula α}
    (spells : Spells source.toList tokens) (derived : Derives (.chain .sum) nesting tokens formula)
    (beyond : nestingLimit < nesting ∨ nestingLimit < formula.height) :
    ∃ column, parse (α := α) source = .error (.tooDeep column) := by
  obtain ⟨token, others, rfl⟩ := List.exists_cons_of_ne_nil derived.ne_nil
  have visible := spells.trim_ne_nil
  rw [← List.append_nil (token :: others)] at spells
  obtain ⟨rest, refused⟩ := derived.exceeds (Nat.zero_le _) (by omega) (fun c member => by simp) spells
  refine ⟨SyntaxError.columnOf source.toList rest, ?_⟩
  simp only [parse, ofChars, List.isEmpty_iff, if_neg visible, refused, SyntaxError.ofFailure]

end LeastSquares.Formula
