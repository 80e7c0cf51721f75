import LeastSquares.Proofs.Formula.MachineLiterals
import LeastSquares.Proofs.Formula.Refusal

/-!
# Reading what was printed

The text of a formula is read as an equal formula, unless its parentheses nest deeper than the limit
or it shows a number that has no digits. A formula that was read itself can fail in both ways: signs
and exponents are enclosed in parentheses when they are printed, which nest deeper, and a decimal
beyond the largest machine number is printed as a word that names nothing.
-/

namespace LeastSquares.Formula

open Text

/-! ## A text spells one sequence of tokens -/

theorem Reads.of_symbol {text rest : List Char} {c : Char} (read : Reads text (.symbol c) rest) :
    text = c :: rest := by
  cases read
  rfl

theorem Reads.unique {text rest rest' : List Char} {token token' : Token}
    (read : Reads text token rest) (readToo : Reads text token' rest') :
    token = token' ∧ rest = rest' := by
  cases token with
  | number mantissa exponent =>
      obtain ⟨after, numeric, rfl⟩ := numeral_complete read
      cases token' with
      | number mantissa' exponent' =>
          obtain ⟨after', numeric', rfl⟩ := numeral_complete readToo
          rw [numeric] at numeric'
          cases numeric'
          exact ⟨rfl, rfl⟩
      | word name | symbol c =>
          rw [readToo.numeral_eq_absent (by simp)] at numeric
          cases numeric
  | word name =>
      obtain ⟨after, word, rfl⟩ := identifier?_complete read
      cases token' with
      | number mantissa exponent =>
          obtain ⟨after', numeric, -⟩ := numeral_complete readToo
          rw [read.numeral_eq_absent (by simp)] at numeric
          cases numeric
      | word name' =>
          obtain ⟨after', word', rfl⟩ := identifier?_complete readToo
          rw [word] at word'
          cases word'
          exact ⟨rfl, rfl⟩
      | symbol c =>
          rw [readToo.identifier?_eq_none] at word
          cases word
  | symbol c =>
      cases token' with
      | number mantissa exponent =>
          obtain ⟨after, numeric, -⟩ := numeral_complete readToo
          rw [read.numeral_eq_absent (by simp)] at numeric
          cases numeric
      | word name =>
          obtain ⟨after, word, -⟩ := identifier?_complete readToo
          rw [read.identifier?_eq_none] at word
          cases word
      | symbol d =>
          have same := read.of_symbol.symm.trans readToo.of_symbol
          cases same
          exact ⟨rfl, rfl⟩

theorem not_spells_nil {text : List Char} {token : Token} {tokens : List Token}
    (spells : Spells text (token :: tokens)) : ¬ Spells text [] := by
  intro blank
  apply spells.trim_ne_nil
  rw [trim, trimStart_eq_nil.mpr (spells_nil.mp blank)]
  rfl

theorem Spells.unique {text : List Char} {tokens tokens' : List Token}
    (spells : Spells text tokens) (spellsToo : Spells text tokens') : tokens = tokens' := by
  induction tokens generalizing text tokens' with
  | nil =>
      cases tokens' with
      | nil => rfl
      | cons token tokens' => exact absurd spells (not_spells_nil spellsToo)
  | cons token tokens ih =>
      cases tokens' with
      | nil => exact absurd spellsToo (not_spells_nil spells)
      | cons token' tokens' =>
          obtain ⟨rest, read, others⟩ := spells_cons.mp spells
          obtain ⟨rest', readToo, othersToo⟩ := spells_cons.mp spellsToo
          obtain ⟨rfl, rfl⟩ := read.unique readToo
          rw [ih others othersToo]

/-! ## What derivations are made of -/

section Derivations

variable {α : Type} [Scalar α] {category : Category} {nesting : Nat} {tokens : List Token}
  {formula : Formula α}

theorem Derives.named (derived : Derives category nesting tokens formula) {name : List Char}
    (member : .word name ∈ tokens) :
    (∃ leaf : Formula α, Names name leaf) ∨ ∃ f, Calls name f := by
  induction derived with
  | operand inner ih | unsigned inner ih | bare inner ih => exact ih member
  | minus inner ih | plus inner ih => exact ih (by simpa using member)
  | operation first joins second ih ihToo | raised first second ih ihToo =>
      rcases List.mem_append.mp member with before | behind
      · exact ih before
      · exact ihToo (by simpa using behind)
  | number mantissa exponent => simp at member
  | name named =>
      cases List.mem_singleton.mp member
      exact .inl ⟨_, named⟩
  | called calls inner ih =>
      simp only [List.mem_cons, List.mem_append, Token.word.injEq, reduceCtorEq, false_or,
        List.not_mem_nil, or_false] at member
      rcases member with rfl | inside
      · exact .inr ⟨_, calls⟩
      · exact ih inside
  | enclosed inner ih => exact ih (by simpa using member)

theorem Derives.bounded (derived : Derives category nesting tokens formula) {i : Nat}
    (found : formula.dependsOn i = true) : i < UInt64.size := by
  induction derived with
  | operand inner ih | unsigned inner ih | bare inner ih | minus inner ih | plus inner ih
  | called calls inner ih | enclosed inner ih => exact ih found
  | operation first joins second ih ihToo | raised first second ih ihToo =>
      rcases (Bool.or_eq_true _ _).mp found with left | right
      · exact ih left
      · exact ihToo right
  | number mantissa exponent => cases found
  | name named =>
      cases named with
      | sample | pi | e => cases found
      | param stems some_digit digital bounded =>
          rwa [← of_decide_eq_true found]

theorem Derives.literal (derived : Derives category nesting tokens formula) {a : α}
    (member : a ∈ formula.numbers) :
    a = Scalar.pi ∨ a = Scalar.e ∨ ∃ mantissa exponent, a = Scalar.ofDecimal mantissa exponent := by
  induction derived with
  | operand inner ih | unsigned inner ih | bare inner ih | minus inner ih | plus inner ih
  | called calls inner ih | enclosed inner ih => exact ih member
  | operation first joins second ih ihToo | raised first second ih ihToo =>
      rcases List.mem_append.mp member with before | behind
      · exact ih before
      · exact ihToo behind
  | number mantissa exponent =>
      exact .inr (.inr ⟨mantissa, exponent, List.mem_singleton.mp member⟩)
  | name named =>
      cases named with
      | sample => cases member
      | param => cases member
      | pi => exact .inl (List.mem_singleton.mp member)
      | e => exact .inr (.inl (List.mem_singleton.mp member))

end Derivations

/-! ## Printed texts -/

section Printed

variable {α : Type} [Scalar α] [ToDecimal α] {formula again : Formula α}

theorem parse_text_of_low (bounded : ∀ i, formula.dependsOn i = true → i < UInt64.size)
    (unsigned : ∀ a ∈ formula.numbers, PrintsUnsigned a)
    (readsBack : ∀ a ∈ formula.numbers, ReadsBack a)
    (shallow : formula.printedNesting ≤ nestingLimit) (low : formula.height ≤ nestingLimit) :
    ∃ again, parse formula.text = .ok again ∧ (formula == again) = true := by
  obtain ⟨again, derived, height, same⟩ := derives_tokens formula bounded unsigned readsBack
  refine ⟨again, parse_of_sentence ⟨_, _, formula.spells_text, derived.chain_of_atom .sum,
    shallow, ?_⟩, same⟩
  rwa [height]

theorem parse_text_of_high (bounded : ∀ i, formula.dependsOn i = true → i < UInt64.size)
    (unsigned : ∀ a ∈ formula.numbers, PrintsUnsigned a)
    (readsBack : ∀ a ∈ formula.numbers, ReadsBack a)
    (beyond : nestingLimit < formula.printedNesting ∨ nestingLimit < formula.height) :
    ∃ column, parse (α := α) formula.text = .error (.tooDeep column) := by
  obtain ⟨again, derived, height, -⟩ := derives_tokens formula bounded unsigned readsBack
  exact parse_of_deep (formula.spells_text) (derived.chain_of_atom .sum) (by rwa [height])

theorem decimal_of_parse_text (read : parse formula.text = .ok again) {a : α}
    (member : a ∈ formula.numbers) (notPi : (a == Scalar.pi) = false)
    (notE : (a == Scalar.e) = false) :
    ∃ negative coefficient exponent,
      ToDecimal.shortest Layout.plain.tie a = .finite negative coefficient exponent := by
  obtain ⟨tokens, nesting, spells, derived, -⟩ := sentence_of_parse read
  obtain rfl := spells.unique formula.spells_text
  have shown := decimalToken_mem_tokens member notPi notE
  cases found : ToDecimal.shortest Layout.plain.tie a with
  | finite negative coefficient exponent => exact ⟨negative, coefficient, exponent, rfl⟩
  | nan | infinity negative =>
      rw [found] at shown
      rcases derived.named shown with ⟨leaf, named⟩ | ⟨f, calls⟩
      · have found := leaf_named.mpr named
        cases found
      · have found := function_named.mpr calls
        cases found

end Printed

theorem isFinite_of_parse_text {formula again : Formula Float}
    (read : parse formula.text = .ok again) {a : Float} (member : a ∈ formula.numbers) :
    Scalar.isFinite a = true := by
  by_cases isPi : (a == Scalar.pi) = true
  · rw [ConstantLaws.eq_pi isPi]
    decide
  by_cases isE : (a == Scalar.e) = true
  · rw [ConstantLaws.eq_e isE]
    decide
  obtain ⟨negative, coefficient, exponent, shown⟩ := decimal_of_parse_text read member
    (Bool.eq_false_iff.mpr isPi) (Bool.eq_false_iff.mpr isE)
  exact MachineNumber.isFinite_of_shortest shown

/-! ## Texts that were read -/

open MachineNumber in
theorem Derives.positive {category : Category} {nesting : Nat} {tokens : List Token}
    {formula : Formula Float} (derived : Derives category nesting tokens formula) {a : Float}
    (member : a ∈ formula.numbers) : signOf a = some .positive := by
  rcases derived.literal member with rfl | rfl | ⟨mantissa, exponent, rfl⟩
  · rfl
  · rfl
  · exact signOf_ofDecimal mantissa exponent

/-- A text that was read is read again from its printed form, as an equal formula, exactly if all its
numbers are finite and its printed form nests within the limit. If only the latter is wrong, the
printed form is refused as too deep. -/
theorem parse_text_iff {source : String} {formula : Formula Float}
    (read : parse source = .ok formula)
    (readsBack : ∀ a ∈ formula.numbers, Scalar.isFinite a = true → ReadsBack a) :
    ((∃ again, parse formula.text = .ok again ∧ (formula == again) = true) ↔
      (∀ a ∈ formula.numbers, Scalar.isFinite a = true) ∧
        formula.printedNesting ≤ nestingLimit) ∧
    ((∀ a ∈ formula.numbers, Scalar.isFinite a = true) → nestingLimit < formula.printedNesting →
      ∃ column, parse (α := Float) formula.text = .error (.tooDeep column)) := by
  obtain ⟨tokens, nesting, spells, derived, -, low⟩ := sentence_of_parse read
  have bounded (i : Nat) := derived.bounded (i := i)
  have unsigned : ∀ a ∈ formula.numbers, PrintsUnsigned a :=
    fun a member => printsUnsigned_of_positive (derived.positive member)
  have deep (finite : ∀ a ∈ formula.numbers, Scalar.isFinite a = true)
      (beyond : nestingLimit < formula.printedNesting) :=
    parse_text_of_high bounded unsigned (fun a member => readsBack a member (finite a member))
      (.inl beyond)
  refine ⟨⟨?_, ?_⟩, deep⟩
  · rintro ⟨again, readAgain, -⟩
    have finite : ∀ a ∈ formula.numbers, Scalar.isFinite a = true :=
      fun a member => isFinite_of_parse_text readAgain member
    refine ⟨finite, ?_⟩
    by_contra beyond
    obtain ⟨column, refused⟩ := deep finite (Nat.lt_of_not_le beyond)
    rw [refused] at readAgain
    cases readAgain
  · rintro ⟨finite, shallow⟩
    exact parse_text_of_low bounded unsigned
      (fun a member => readsBack a member (finite a member)) shallow low

/-! ## Signs in a row -/

def negated {α : Type} : Nat → Formula α → Formula α
  | 0, operand => operand
  | count + 1, operand => neg (negated count operand)

section Negated

variable {α : Type} (count : Nat) (operand : Formula α)

theorem height_negated : (negated count operand).height = operand.height + count := by
  induction count with
  | zero => rfl
  | succ count ih => rw [negated, height, ih, Nat.add_assoc]

theorem printedNesting_negated :
    (negated count operand).printedNesting = operand.printedNesting + 2 * count := by
  induction count with
  | zero => rfl
  | succ count ih => rw [negated, printedNesting, ih]; omega

theorem numbers_negated : (negated count operand).numbers = operand.numbers := by
  induction count with
  | zero => rfl
  | succ count ih => rw [negated, numbers, ih]

theorem dependsOn_negated (i : Nat) : (negated count operand).dependsOn i = operand.dependsOn i := by
  induction count with
  | zero => rfl
  | succ count ih => rw [negated, dependsOn, ih]

variable [Scalar α] {operand}

theorem Derives.negated {nesting : Nat} {tokens : List Token}
    (derived : Derives .unary nesting tokens operand) :
    Derives .unary (nesting + count) (List.replicate count (.symbol '-') ++ tokens)
      (negated count operand) := by
  induction count with
  | zero => exact derived
  | succ count ih => exact .minus ih

theorem Spells.minuses {text : List Char} {tokens : List Token} (spells : Spells text tokens) :
    Spells (List.replicate count '-' ++ text) (List.replicate count (.symbol '-') ++ tokens) := by
  induction count with
  | zero => exact spells
  | succ count ih => exact ih.symbol (by simp [IsSymbol])

theorem parse_minuses {text : List Char} {token : Token} (spells : Spells text [token])
    (derived : Derives .atom 0 [token] operand) (leaf : operand.height = 1)
    (room : count < nestingLimit) :
    parse (String.ofList (List.replicate count '-' ++ text)) = .ok (negated count operand) := by
  refine parse_of_sentence ⟨_, _, ?_, .operand (.operand (derived.unary_of_atom.negated count)),
    ?_, ?_⟩
  · rw [String.toList_ofList]
    exact spells.minuses count
  · omega
  · rw [height_negated, leaf]
    omega

end Negated

theorem spells_tenth : Spells ['0', '.', '1'] [.number 1 (-1)] := by
  have read : numeral ['0', '.', '1'] = .decimal 1 (-1) ⟨[], by decide⟩ := rfl
  exact (numeral_sound read).spells (.done fun c member => by cases member)

theorem readsBack_tenth : ReadsBack (Scalar.ofDecimal 1 (-1) : Float) :=
  ⟨1, -1, by decide +kernel, by decide +kernel⟩

theorem parse_text_iff_tenth :
    let tenth : Formula Float := number (Scalar.ofDecimal 1 (-1))
    (∃ again, parse (negated 64 tenth).text = .ok again ∧ (negated 64 tenth == again) = true) ∧
      ∃ column, parse (α := Float) (negated 65 tenth).text = .error (.tooDeep column) := by
  intro tenth
  have finite : ∀ a ∈ tenth.numbers, Scalar.isFinite a = true := by decide +kernel
  have readsBack : ∀ a ∈ tenth.numbers, Scalar.isFinite a = true → ReadsBack a := by
    intro a member _
    rw [List.mem_singleton.mp member]
    exact readsBack_tenth
  have derived : Derives .atom 0 [.number 1 (-1)] tenth := .number 1 (-1)
  have read (count : Nat) (room : count < nestingLimit) :=
    parse_minuses count spells_tenth derived rfl room
  constructor
  · refine (parse_text_iff (read 64 (by decide)) ?_).1.mpr ⟨?_, ?_⟩
    · rwa [numbers_negated]
    · rwa [numbers_negated]
    · decide
  · refine (parse_text_iff (read 65 (by decide)) ?_).2 ?_ ?_
    · rwa [numbers_negated]
    · rwa [numbers_negated]
    · decide

/-- Two texts that are read while what is printed for them is not. -/
theorem printed_text_refused :
    (∃ formula : Formula Float, parse (String.ofList (List.replicate 65 '-' ++ ['x'])) = .ok formula ∧
      ∃ column, parse (α := Float) formula.text = .error (.tooDeep column)) ∧
    ∃ formula : Formula Float, parse "1e999" = .ok formula ∧
      ∀ again : Formula Float, parse formula.text ≠ .ok again := by
  have ended : Spells [] [] := .done fun c member => by cases member
  constructor
  · have isWord : IsWord ['x'] := isWord_cons rfl rfl
    have spells := (reads_word isWord ends_nil.stops).spells ended
    have read := parse_minuses 65 spells (.name (.sample : Names _ (sample : Formula Float))) rfl
      (by decide)
    refine ⟨_, read, ?_⟩
    refine parse_text_of_high ?_ ?_ ?_ (.inl ?_)
    · intro i found
      rw [dependsOn_negated] at found
      cases found
    · rw [numbers_negated]
      exact fun a member => by cases member
    · rw [numbers_negated]
      exact fun a member => by cases member
    · rw [printedNesting_negated]
      decide
  · have read : numeral ['1', 'e', '9', '9', '9'] = .decimal 1 999 ⟨[], by decide⟩ := rfl
    have derived := (Derives.number (α := Float) 1 999).chain_of_atom .sum
    refine ⟨_, parse_of_sentence ⟨_, _, (numeral_sound read).spells ended, derived, by decide,
      by decide⟩, fun again readAgain => ?_⟩
    have finite := isFinite_of_parse_text readAgain List.mem_cons_self
    have infinite : Scalar.isFinite (Scalar.ofDecimal 1 999 : Float) = false := by decide +kernel
    rw [infinite] at finite
    cases finite

end LeastSquares.Formula
