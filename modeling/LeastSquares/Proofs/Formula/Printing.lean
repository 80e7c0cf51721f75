import Mathlib
import LeastSquares.Formula.Printer
import LeastSquares.Proofs.Formula.Recognition

namespace LeastSquares

open Text

def Decimal.isNegative : Decimal → Bool
  | nan => false
  | infinity negative | finite negative _ _ => negative

namespace Formula

/-! ## Digits -/

theorem naturalOf_append (left right : List Char) :
    naturalOf (left ++ right) = Nat.ofDigitChars 10 right (naturalOf left) :=
  Nat.ofDigitChars_append 0

theorem ofDigitChars_zeros (count start : Nat) :
    Nat.ofDigitChars 10 (List.replicate count '0') start = start * 10 ^ count := by
  induction count generalizing start with
  | zero => simp [Nat.ofDigitChars]
  | succ count ih =>
      rw [List.replicate_succ, Nat.ofDigitChars_cons, ih, Nat.pow_succ]
      simp only [Nat.sub_self, Nat.add_zero]
      rw [Nat.mul_comm 10 start, Nat.mul_assoc, Nat.mul_comm 10]

theorem naturalOf_digits (n : Nat) : naturalOf (Decimal.digits n) = n :=
  Nat.ofDigitChars_toDigits (by decide) (by decide)

theorem allDigits_digits (n : Nat) : AllDigits (Decimal.digits n) :=
  fun _ member => Nat.isDigit_of_mem_toDigits (by decide) (by decide) member

theorem digits_ne_nil (n : Nat) : Decimal.digits n ≠ [] :=
  Nat.toDigits_ne_nil

theorem allDigits_replicate (count : Nat) : AllDigits (List.replicate count '0') := by
  intro c member
  rw [List.eq_of_mem_replicate member]
  rfl

theorem AllDigits.append {left right : List Char} (digital : AllDigits left)
    (digitalToo : AllDigits right) : AllDigits (left ++ right) := by
  intro c member
  rcases List.mem_append.mp member with before | behind
  · exact digital c before
  · exact digitalToo c behind

theorem significand_positionalText (coefficient : Nat) (exponent : Int) :
    ∃ places : Nat, Significand (Decimal.positionalText false coefficient exponent)
        (coefficient * 10 ^ exponent.toNat) places ∧ (0 : Int) - places = min exponent 0 := by
  cases exponent with
  | ofNat zeros =>
      have value : naturalOf (Decimal.digits coefficient ++ List.replicate zeros '0') =
          coefficient * 10 ^ zeros := by
        rw [naturalOf_append, ofDigitChars_zeros, naturalOf_digits]
      refine ⟨0, ?_, by rw [Int.ofNat_eq_natCast]; omega⟩
      simp only [Decimal.positionalText, Bool.false_eq_true, if_false, List.append_nil,
        Int.ofNat_eq_natCast, Int.toNat_natCast, ← value]
      exact .whole (by simp [digits_ne_nil]) ((allDigits_digits _).append (allDigits_replicate _))
  | negSucc k =>
      let padded := List.replicate (k + 2 - (Decimal.digits coefficient).length) '0' ++
        Decimal.digits coefficient
      let whole := padded.length - (k + 1)
      have long : k + 2 ≤ padded.length := by
        simp only [padded, List.length_append, List.length_replicate]
        omega
      have digital : AllDigits padded := (allDigits_replicate _).append (allDigits_digits _)
      have value : naturalOf (padded.take whole ++ padded.drop whole) =
          coefficient * 10 ^ (Int.negSucc k).toNat := by
        have zeros (count : Nat) : naturalOf (List.replicate count '0') = 0 :=
          (ofDigitChars_zeros count 0).trans (Nat.zero_mul _)
        rw [List.take_append_drop, naturalOf_append, zeros]
        exact (naturalOf_digits coefficient).trans (Nat.mul_one _).symm
      have places : (padded.drop whole).length = k + 1 := by
        rw [List.length_drop]
        omega
      refine ⟨(padded.drop whole).length, ?_, by rw [places]; omega⟩
      rw [← value]
      refine .pointed (fun empty => ?_) (fun c member => digital c (List.take_subset _ _ member))
        fun c member => digital c (List.drop_subset _ _ member)
      rw [empty.2] at places
      cases places

/-! ## Numbers -/

def decimalToken : Decimal → Token
  | .nan => .word Layout.plain.nan.toList
  | .infinity _ => .word Layout.plain.infinity.toList
  | .finite _ coefficient exponent => .number (coefficient * 10 ^ exponent.toNat) (min exponent 0)

def decimalTokens (shown : Decimal) : List Token :=
  if shown.isNegative then [.symbol '-', decimalToken shown] else [decimalToken shown]

theorem decimalToken_mem_decimalTokens (shown : Decimal) :
    decimalToken shown ∈ decimalTokens shown := by
  unfold decimalTokens
  split_ifs <;> simp

section Numbers

variable {α : Type} [Scalar α] [ToDecimal α]

def numberTokens (a : α) : List Token :=
  if a == Scalar.pi then [.word ['p', 'i']]
  else if a == Scalar.e then [.word ['e']]
  else
    let shown := decimalTokens (ToDecimal.shortest Layout.plain.tie a)
    if a < ((0 : Nat) : α) then .symbol '(' :: (shown ++ [.symbol ')']) else shown

def PrintsUnsigned (a : α) : Prop :=
  ¬ a < ((0 : Nat) : α) ∧ (ToDecimal.shortest Layout.plain.tie a).isNegative = false

/-- The digits that a number is printed with are those of a number equal to it. -/
def ReadsBack (a : α) : Prop :=
  ∃ coefficient exponent,
    ToDecimal.shortest Layout.plain.tie a = .finite false coefficient exponent ∧
      (a == Scalar.ofDecimal (coefficient * 10 ^ exponent.toNat) (min exponent 0)) = true

end Numbers

/-! ## Tokens -/

section Tokens

variable {α : Type}

def numbers : Formula α → List α
  | number value => [value]
  | sample | param _ => []
  | neg operand => operand.numbers
  | binary _ left right => left.numbers ++ right.numbers
  | call _ argument => argument.numbers

/-- How deep the text of a formula nests. A negation counts twice, for its parenthesis and its sign,
and so does an exponent. -/
def printedNesting : Formula α → Nat
  | number _ | sample | param _ => 0
  | neg operand => operand.printedNesting + 2
  | binary .pow base exponent => max base.printedNesting (exponent.printedNesting + 1) + 1
  | binary _ left right => max left.printedNesting right.printedNesting + 1
  | call _ argument => argument.printedNesting + 1

variable [Scalar α] [ToDecimal α]

def tokens : Formula α → List Token
  | number value => numberTokens value
  | sample => [.word ['x']]
  | param index => [.word ("param".toList ++ Decimal.digits index)]
  | neg operand => .symbol '(' :: (.symbol '-' :: operand.tokens ++ [.symbol ')'])
  | binary op left right =>
    .symbol '(' :: (left.tokens ++ .symbol op.symbol :: right.tokens ++ [.symbol ')'])
  | call f argument => .word f.name.toList :: .symbol '(' :: (argument.tokens ++ [.symbol ')'])

end Tokens

/-! ## The text spells the tokens -/

/-- Nothing follows that a number or a word could take in. -/
def Ends (rest : List Char) : Prop :=
  ∀ c tail, rest = c :: tail → c = ' ' ∨ c = ')'

theorem Ends.stops {rest : List Char} (ends : Ends rest) : Stops continuesWord rest := by
  intro c tail start
  rcases ends c tail start with rfl | rfl <;> rfl

theorem ends_nil : Ends [] :=
  fun _ _ impossible => nomatch impossible

theorem ends_blank (rest : List Char) : Ends (' ' :: rest) := by
  intro c tail start
  cases start
  exact .inl rfl

theorem ends_parenthesis (rest : List Char) : Ends (')' :: rest) := by
  intro c tail start
  cases start
  exact .inr rfl

theorem reads_word {name rest : List Char} (isWord : IsWord name) (stops : Stops continuesWord rest) :
    Reads (name ++ rest) (.word name) rest := by
  refine .word isWord fun more tail split longer => ?_
  cases more with
  | nil => rfl
  | cons d more =>
      obtain ⟨c, others, rfl, -⟩ := isWord
      obtain ⟨_, _, start, -, continues⟩ := longer
      cases start
      have stopped := stops d (more ++ tail) split
      rw [continues d (by simp)] at stopped
      cases stopped

theorem reads_number {text rest : List Char} {mantissa places : Nat}
    (digits : Significand text mantissa places) (ends : Ends rest) :
    Reads (text ++ rest) (.number mantissa (0 - places)) rest := by
  obtain ⟨after, read, left⟩ := digits.numeral_unmarked
    (fun c tail start m p longer => by
      rcases longer.character (List.mem_append_right _ List.mem_cons_self) with digit | rfl
      · rcases ends c tail start with rfl | rfl <;> cases digit
      · rcases ends _ tail start with impossible | impossible <;> cases impossible)
    fun letter tail start marks => by
      rcases ends letter tail start with rfl | rfl <;> rcases marks with marks | marks <;> cases marks
  have reads := numeral_sound read
  rwa [left] at reads

theorem Spells.symbol {text : List Char} {tokens : List Token} {c : Char} (symbolic : IsSymbol c)
    (spells : Spells text tokens) : Spells (c :: text) (.symbol c :: tokens) :=
  (Reads.symbol symbolic).spells spells

theorem Spells.closed {text : List Char} {tokens : List Token} (spells : Spells text tokens) :
    Spells (')' :: text) (.symbol ')' :: tokens) :=
  spells.symbol (by simp [IsSymbol])

theorem Spells.blank {text : List Char} {tokens : List Token} (spells : Spells text tokens) :
    Spells (' ' :: text) tokens := by
  rw [← spells_skipBlanks] at spells ⊢
  exact spells

theorem isSymbol_symbol (op : Operator) : IsSymbol op.symbol := by
  cases op <;> simp [IsSymbol, Operator.symbol]

theorem isWord_cons {c : Char} {rest : List Char} (begins : beginsWord c = true)
    (continues : rest.all continuesWord = true) : IsWord (c :: rest) :=
  ⟨c, rest, rfl, begins, List.all_eq_true.mp continues⟩

theorem isWord_name (f : Elementary) : IsWord f.name.toList := by
  cases f <;> exact isWord_cons rfl rfl

theorem isWord_parameter (index : Nat) : IsWord ("param".toList ++ Decimal.digits index) := by
  change IsWord ('p' :: ("aram".toList ++ Decimal.digits index))
  refine isWord_cons rfl ?_
  rw [List.all_append, Bool.and_eq_true]
  refine ⟨rfl, List.all_eq_true.mpr fun c digit => ?_⟩
  simp [continuesWord, Char.isAlphanum, allDigits_digits index c digit]

theorem reads_decimal {shown : Decimal} (unsigned : shown.isNegative = false) {rest : List Char}
    (ends : Ends rest) : Reads (Layout.plain.render shown ++ rest) (decimalToken shown) rest := by
  have word (name : List Char) (isWord : IsWord name) : Reads (name ++ rest) (.word name) rest :=
    reads_word isWord ends.stops
  cases shown with
  | nan => exact word Layout.plain.nan.toList (isWord_cons rfl rfl)
  | infinity negative =>
      cases unsigned
      exact word Layout.plain.infinity.toList (isWord_cons rfl rfl)
  | finite negative coefficient exponent =>
      cases unsigned
      obtain ⟨places, digits, same⟩ := significand_positionalText coefficient exponent
      have reads := reads_number digits ends
      rwa [same] at reads

/-- Characters that spell certain tokens wherever nothing follows that these could take in. -/
def Shows (chars : List Char) (tokens : List Token) : Prop :=
  ∀ ⦃rest : List Char⦄ ⦃more : List Token⦄, Ends rest → Spells rest more →
    Spells (chars ++ rest) (tokens ++ more)

namespace Shows

variable {chars charsToo : List Char} {tokens tokensToo : List Token}

theorem of_reads {token : Token} (reads : ∀ ⦃rest : List Char⦄, Ends rest →
    Reads (chars ++ rest) token rest) : Shows chars [token] :=
  fun _ _ ends spells => (reads ends).spells spells

theorem of_word (isWord : IsWord chars) : Shows chars [.word chars] :=
  of_reads fun _ ends => reads_word isWord ends.stops

theorem minus (shows : Shows chars tokens) : Shows ('-' :: chars) (.symbol '-' :: tokens) :=
  fun _ _ ends spells => .symbol (by simp [IsSymbol]) (shows ends spells)

theorem enclosed (shows : Shows chars tokens) :
    Shows ('(' :: (chars ++ [')'])) (.symbol '(' :: (tokens ++ [.symbol ')'])) := by
  intro rest more _ spells
  have inner := shows (ends_parenthesis rest) spells.closed
  simp only [List.cons_append, List.append_assoc, List.nil_append]
  exact .symbol (by simp [IsSymbol]) inner

theorem joined (op : Operator) (left : Shows chars tokens) (right : Shows charsToo tokensToo) :
    Shows (chars ++ ' ' :: op.symbol :: ' ' :: charsToo)
      (tokens ++ .symbol op.symbol :: tokensToo) := by
  intro rest more ends spells
  have after := (right ends spells).blank.symbol (isSymbol_symbol op)
  simp only [List.cons_append, List.append_assoc]
  exact left (ends_blank _) after.blank

theorem called (f : Elementary) (argument : Shows chars tokens) :
    Shows (f.name.toList ++ '(' :: chars ++ [')'])
      (.word f.name.toList :: .symbol '(' :: (tokens ++ [.symbol ')'])) := by
  intro rest more ends spells
  have inner := argument.enclosed ends spells
  have stops : Stops continuesWord ('(' :: (chars ++ ')' :: rest)) := by
    intro c tail start
    cases start
    rfl
  simp only [List.cons_append, List.append_assoc, List.nil_append] at inner ⊢
  exact (reads_word (isWord_name f) stops).spells inner

end Shows

theorem shows_decimal (shown : Decimal) :
    Shows (Layout.plain.render shown) (decimalTokens shown) := by
  have unsigned (size : Decimal) (plain : size.isNegative = false) :
      Shows (Layout.plain.render size) [decimalToken size] :=
    .of_reads fun _ => reads_decimal plain
  cases shown with
  | nan => exact unsigned _ rfl
  | infinity negative =>
      cases negative with
      | false => exact unsigned _ rfl
      | true => exact (unsigned (.infinity false) rfl).minus
  | finite negative coefficient exponent =>
      cases negative with
      | false => exact unsigned _ rfl
      | true => exact (unsigned (.finite false coefficient exponent) rfl).minus

section Printing

variable {α : Type} [Scalar α] [ToDecimal α]

theorem shows_numberText (a : α) : Shows (numberText a) (numberTokens a) := by
  unfold numberText numberTokens
  dsimp only
  split_ifs
  · exact .of_word (isWord_cons rfl rfl)
  · exact .of_word (isWord_cons rfl rfl)
  · exact (shows_decimal _).enclosed
  · exact shows_decimal _

theorem shows_chars (formula : Formula α) : Shows formula.chars formula.tokens := by
  induction formula with
  | number value => exact shows_numberText value
  | sample => exact .of_word (isWord_cons rfl rfl)
  | param index => exact .of_word (isWord_parameter index)
  | neg operand ih => exact ih.minus.enclosed
  | binary op left right ihl ihr => exact (ihl.joined op ihr).enclosed
  | call f argument ih => exact ih.called f

theorem spells_text (formula : Formula α) :
    Spells formula.text.toList formula.tokens := by
  have spells := formula.shows_chars ends_nil (.done fun c member => by cases member)
  rwa [List.append_nil, List.append_nil, ← String.toList_ofList (l := formula.chars)] at spells

theorem decimalToken_mem_tokens {formula : Formula α} {a : α} (member : a ∈ formula.numbers)
    (notPi : (a == Scalar.pi) = false) (notE : (a == Scalar.e) = false) :
    decimalToken (ToDecimal.shortest Layout.plain.tie a) ∈ formula.tokens := by
  induction formula with
  | number value =>
      cases List.mem_singleton.mp member
      have shown := decimalToken_mem_decimalTokens (ToDecimal.shortest Layout.plain.tie a)
      rw [tokens, numberTokens, notPi, notE, if_neg Bool.false_ne_true,
        if_neg Bool.false_ne_true]
      dsimp only
      split_ifs
      · exact List.mem_cons_of_mem _ (List.mem_append_left _ shown)
      · exact shown
  | sample | param index => cases member
  | neg operand ih => simp [tokens, ih member]
  | binary op left right ihl ihr =>
      rcases List.mem_append.mp member with before | behind
      · simp [tokens, ihl before]
      · simp [tokens, ihr behind]
  | call f argument ih => simp [tokens, ih member]

end Printing

/-! ## The grammar derives the formula -/

section Derivation

variable {α : Type} [Scalar α]

theorem derives_parameter {index : Nat} (bound : index < UInt64.size) :
    Derives .atom 0 [.word ("param".toList ++ Decimal.digits index)] (param index : Formula α) := by
  have named := Names.param (α := α) (.inl rfl) (digits_ne_nil index) (allDigits_digits index)
    (by rwa [naturalOf_digits])
  rw [naturalOf_digits] at named
  exact .name named

theorem Derives.unary_of_atom {nesting : Nat} {tokens : List Token} {formula : Formula α}
    (derived : Derives .atom nesting tokens formula) : Derives .unary nesting tokens formula :=
  .unsigned (.bare derived)

theorem Derives.chain_of_unary {nesting : Nat} {tokens : List Token} {formula : Formula α}
    (derived : Derives .unary nesting tokens formula) (level : Level) :
    Derives (.chain level) nesting tokens formula := by
  cases level with
  | sum => exact .operand (.operand derived)
  | product => exact .operand derived

theorem Derives.chain_of_atom {nesting : Nat} {tokens : List Token} {formula : Formula α}
    (derived : Derives .atom nesting tokens formula) (level : Level) :
    Derives (.chain level) nesting tokens formula :=
  derived.unary_of_atom.chain_of_unary level

theorem Derives.negated_in_parentheses {nesting : Nat} {tokens : List Token} {formula : Formula α}
    (derived : Derives .unary nesting tokens formula) :
    Derives .atom (nesting + 2) (.symbol '(' :: (.symbol '-' :: tokens ++ [.symbol ')']))
      (neg formula) :=
  .enclosed (.chain_of_unary (.minus derived) .sum)

section Operations

variable {deep deepToo : Nat} {before after : List Token} {left right : Formula α}

theorem Derives.joined {op : Operator} (loose : op ≠ .pow) (first : Derives .unary deep before left)
    (second : Derives .unary deepToo after right) :
    Derives .atom (max deep deepToo + 1)
      (.symbol '(' :: (before ++ .symbol op.symbol :: after ++ [.symbol ')']))
      (binary op left right) := by
  apply Derives.enclosed
  cases op with
  | add => exact .operation (first.chain_of_unary .sum) .add (second.chain_of_unary .product)
  | sub => exact .operation (first.chain_of_unary .sum) .sub (second.chain_of_unary .product)
  | mul => exact .operand (.operation (first.chain_of_unary .product) .mul second)
  | div => exact .operand (.operation (first.chain_of_unary .product) .div second)
  | pow => exact absurd rfl loose

theorem Derives.power_in_parentheses (first : Derives .atom deep before left)
    (second : Derives .unary deepToo after right) :
    Derives .atom (max deep (deepToo + 1) + 1)
      (.symbol '(' :: (before ++ .symbol '^' :: after ++ [.symbol ')']))
      (binary .pow left right) :=
  .enclosed (.chain_of_unary (.unsigned (.raised first second)) .sum)

end Operations

theorem beq_binary (op op' : Operator) (left right left' right' : Formula α) :
    (binary op left right == binary op' left' right') =
      (op == op' && (left == left' && right == right')) :=
  rfl

theorem beq_call (f f' : Elementary) (argument argument' : Formula α) :
    (call f argument == call f' argument') = (f == f' && argument == argument') :=
  rfl

variable [ToDecimal α]

theorem PrintsUnsigned.decimalTokens_eq {a : α} (unsigned : PrintsUnsigned a) :
    decimalTokens (ToDecimal.shortest Layout.plain.tie a) =
      [decimalToken (ToDecimal.shortest Layout.plain.tie a)] := by
  rw [decimalTokens, unsigned.2, if_neg Bool.false_ne_true]

theorem derives_numberTokens {a : α} (unsigned : PrintsUnsigned a) (readsBack : ReadsBack a) :
    ∃ b : α, Derives .atom 0 (numberTokens a) (number b) ∧ (a == b) = true := by
  obtain ⟨coefficient, exponent, shown, same⟩ := readsBack
  unfold numberTokens
  dsimp only
  split_ifs with isPi isE below
  · exact ⟨Scalar.pi, .name .pi, isPi⟩
  · exact ⟨Scalar.e, .name .e, isE⟩
  · exact absurd below unsigned.1
  · rw [unsigned.decimalTokens_eq, shown]
    exact ⟨_, .number _ _, same⟩

/-- What is printed is read as an equal formula, which nests as deep as the text shows and is as high
as the original. -/
theorem derives_tokens (formula : Formula α)
    (bounded : ∀ i, formula.dependsOn i = true → i < UInt64.size)
    (unsigned : ∀ a ∈ formula.numbers, PrintsUnsigned a)
    (readsBack : ∀ a ∈ formula.numbers, ReadsBack a) :
    ∃ again, Derives .atom formula.printedNesting formula.tokens again ∧
      again.height = formula.height ∧ (formula == again) = true := by
  induction formula with
  | number value =>
      obtain ⟨b, derived, same⟩ := derives_numberTokens (unsigned value List.mem_cons_self)
        (readsBack value List.mem_cons_self)
      exact ⟨number b, derived, rfl, same⟩
  | sample => exact ⟨sample, .name .sample, rfl, rfl⟩
  | param index =>
      have derived := derives_parameter (α := α) (bounded index (by simp [dependsOn]))
      exact ⟨param index, derived, rfl, beq_self_eq_true index⟩
  | neg operand ih =>
      obtain ⟨again, derived, height, same⟩ := ih bounded unsigned readsBack
      exact ⟨neg again, derived.unary_of_atom.negated_in_parentheses,
        by simp only [Formula.height, height], same⟩
  | binary op left right ihl ihr =>
      obtain ⟨first, derived, height, same⟩ := ihl
        (fun i found => bounded i (by simp [dependsOn, found]))
        (fun a member => unsigned a (List.mem_append_left _ member))
        fun a member => readsBack a (List.mem_append_left _ member)
      obtain ⟨second, derivedToo, heightToo, sameToo⟩ := ihr
        (fun i found => bounded i (by simp [dependsOn, found]))
        (fun a member => unsigned a (List.mem_append_right _ member))
        fun a member => readsBack a (List.mem_append_right _ member)
      refine ⟨binary op first second, ?_, by simp only [Formula.height, height, heightToo], ?_⟩
      · cases op with
        | add | sub | mul | div =>
            exact .joined (by decide) derived.unary_of_atom derivedToo.unary_of_atom
        | pow => exact derived.power_in_parentheses derivedToo.unary_of_atom
      · rw [beq_binary, same, sameToo, beq_self_eq_true, Bool.and_self, Bool.and_self]
  | call f argument ih =>
      obtain ⟨again, derived, height, same⟩ := ih bounded unsigned readsBack
      refine ⟨call f again, ?_, by simp only [Formula.height, height], ?_⟩
      · exact .called (.own f) (derived.chain_of_atom .sum)
      · rw [beq_call, same, beq_self_eq_true, Bool.and_self]

end Derivation

end Formula

end LeastSquares
