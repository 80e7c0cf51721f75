import LeastSquares.Proofs.Formula.Printing
import LeastSquares.Proofs.Scalars

namespace LeastSquares.Formula

open Text

section Signs

variable {α : Type} [Scalar α] [ToDecimal α]

/-- A number is printed with a sign and without parentheses. -/
def PrintsBareSign (a : α) : Prop :=
  (a == Scalar.pi) = false ∧ (a == Scalar.e) = false ∧ ¬ a < ((0 : Nat) : α) ∧
    (ToDecimal.shortest Layout.plain.tie a).isNegative = true

theorem PrintsUnsigned.not_printsBareSign {a : α} (unsigned : PrintsUnsigned a) :
    ¬ PrintsBareSign a := by
  rintro ⟨-, -, -, negative⟩
  rw [unsigned.2] at negative
  cases negative

def ShowsBareSign : Formula α → Prop
  | number value => PrintsBareSign value
  | _ => False

def BasesEnclosed : Formula α → Prop
  | number _ | sample | param _ => True
  | neg operand => operand.BasesEnclosed
  | binary op left right =>
    (op = .pow → ¬ left.ShowsBareSign) ∧ left.BasesEnclosed ∧ right.BasesEnclosed
  | call _ argument => argument.BasesEnclosed

theorem basesEnclosed_of_unsigned {formula : Formula α}
    (unsigned : ∀ a ∈ formula.numbers, PrintsUnsigned a) : formula.BasesEnclosed := by
  induction formula with
  | number _ | sample | param _ => trivial
  | neg operand ih => exact ih unsigned
  | binary op left right ihl ihr =>
      have before : ∀ a ∈ left.numbers, PrintsUnsigned a :=
        fun a member => unsigned a (List.mem_append_left _ member)
      refine ⟨fun _ bare => ?_, ihl before,
        ihr fun a member => unsigned a (List.mem_append_right _ member)⟩
      cases left with
      | number value => exact (before value List.mem_cons_self).not_printsBareSign bare
      | sample | param _ | neg _ | binary _ _ _ | call _ _ => exact bare
  | call _ argument ih => exact ih unsigned

end Signs

section Values

variable {α : Type} [Scalar α]

def withSign (negative : Bool) (size : α) : α :=
  if negative then -size else size

/-- Tokens of a category can be read as a formula with the values of the given one. -/
def Conveys (category : Category) (tokens : List Token) (formula : Formula α) : Prop :=
  ∃ again nesting, Derives category nesting tokens again ∧
    ∀ x params, again.evaluate x params = formula.evaluate x params

namespace Conveys

variable {tokens before after : List Token} {formula left right : Formula α}

theorem of_leaf {nesting : Nat} {category : Category}
    (derived : Derives category nesting tokens formula) : Conveys category tokens formula :=
  ⟨formula, nesting, derived, fun _ _ => rfl⟩

theorem atomic {condition : Prop} (conveys : Conveys .atom tokens formula) :
    Conveys .unary tokens formula ∧ (condition → Conveys .atom tokens formula) := by
  obtain ⟨again, nesting, derived, same⟩ := conveys
  exact ⟨⟨again, nesting, derived.unary_of_atom, same⟩, fun _ => ⟨again, nesting, derived, same⟩⟩

theorem enclosed (conveys : Conveys .unary tokens formula) :
    Conveys .atom (.symbol '(' :: (tokens ++ [.symbol ')'])) formula := by
  obtain ⟨again, nesting, derived, same⟩ := conveys
  exact ⟨again, nesting + 1, .enclosed (derived.chain_of_unary .sum), same⟩

theorem negated (conveys : Conveys .unary tokens formula) :
    Conveys .atom (.symbol '(' :: (.symbol '-' :: tokens ++ [.symbol ')'])) (neg formula) := by
  obtain ⟨again, nesting, derived, same⟩ := conveys
  refine ⟨neg again, nesting + 2, derived.negated_in_parentheses, fun x params => ?_⟩
  rw [evaluate, evaluate, same]

theorem joined {op : Operator} (first : Conveys .unary before left)
    (base : op = .pow → Conveys .atom before left) (second : Conveys .unary after right) :
    Conveys .atom (.symbol '(' :: (before ++ .symbol op.symbol :: after ++ [.symbol ')']))
      (binary op left right) := by
  obtain ⟨second, deepToo, derivedToo, sameToo⟩ := second
  by_cases power : op = .pow
  · obtain ⟨first, deep, derived, same⟩ := base power
    subst power
    refine ⟨binary .pow first second, _, derived.power_in_parentheses derivedToo, fun x params => ?_⟩
    rw [evaluate, evaluate, same, sameToo]
  · obtain ⟨first, deep, derived, same⟩ := first
    refine ⟨binary op first second, _, derived.joined power derivedToo, fun x params => ?_⟩
    rw [evaluate, evaluate, same, sameToo]

theorem called (f : Elementary) (argument : Conveys .unary tokens formula) :
    Conveys .atom (.word f.name.toList :: .symbol '(' :: (tokens ++ [.symbol ')']))
      (call f formula) := by
  obtain ⟨again, nesting, derived, same⟩ := argument
  refine ⟨call f again, nesting + 1, .called (.own f) (derived.chain_of_unary .sum),
    fun x params => ?_⟩
  rw [evaluate, evaluate, same]

end Conveys

variable [ToDecimal α]

/-- The digits that a number is printed with, read with the sign in front of them, are the number. -/
def PrintsExactly (a : α) : Prop :=
  ∃ negative coefficient exponent,
    ToDecimal.shortest Layout.plain.tie a = .finite negative coefficient exponent ∧
      a = withSign negative (Scalar.ofDecimal (coefficient * 10 ^ exponent.toNat) (min exponent 0))

theorem PrintsExactly.conveys_decimalTokens {a : α} (exactly : PrintsExactly a) :
    Conveys .unary (decimalTokens (ToDecimal.shortest Layout.plain.tie a)) (number a) ∧
      ((ToDecimal.shortest Layout.plain.tie a).isNegative = false →
        Conveys .atom (decimalTokens (ToDecimal.shortest Layout.plain.tie a)) (number a)) := by
  obtain ⟨negative, coefficient, exponent, shown, rfl⟩ := exactly
  rw [shown]
  have digits : Derives .atom 0 [decimalToken (.finite negative coefficient exponent)]
      (number (Scalar.ofDecimal (coefficient * 10 ^ exponent.toNat) (min exponent 0) : α)) :=
    .number _ _
  cases negative with
  | false => exact ⟨.of_leaf digits.unary_of_atom, fun _ => .of_leaf digits⟩
  | true =>
      refine ⟨⟨neg _, 1, digits.unary_of_atom.minus, fun _ _ => rfl⟩, fun impossible => ?_⟩
      cases impossible

theorem conveys_numberTokens [ConstantLaws α] {a : α} (exactly : PrintsExactly a) :
    Conveys .unary (numberTokens a) (number a) ∧
      (¬ PrintsBareSign a → Conveys .atom (numberTokens a) (number a)) := by
  obtain ⟨signed, unsigned⟩ := exactly.conveys_decimalTokens
  unfold numberTokens
  dsimp only
  split_ifs with isPi isE below
  · obtain rfl := ConstantLaws.eq_pi isPi
    exact Conveys.atomic (.of_leaf (.name .pi))
  · obtain rfl := ConstantLaws.eq_e isE
    exact Conveys.atomic (.of_leaf (.name .e))
  · exact signed.enclosed.atomic
  · refine ⟨signed, fun enclosed => unsigned (Bool.eq_false_iff.mpr fun negative => ?_)⟩
    exact enclosed ⟨Bool.eq_false_iff.mpr isPi, Bool.eq_false_iff.mpr isE, below, negative⟩

theorem conveys_tokens [ConstantLaws α] (formula : Formula α)
    (bounded : ∀ i, formula.dependsOn i = true → i < UInt64.size)
    (enclosed : formula.BasesEnclosed) (exactly : ∀ a ∈ formula.numbers, PrintsExactly a) :
    Conveys .unary formula.tokens formula ∧
      (¬ formula.ShowsBareSign → Conveys .atom formula.tokens formula) := by
  induction formula with
  | number value => exact conveys_numberTokens (exactly value List.mem_cons_self)
  | sample => exact Conveys.atomic (.of_leaf (.name .sample))
  | param index =>
      exact Conveys.atomic (.of_leaf (derives_parameter (bounded index (by simp [dependsOn]))))
  | neg operand ih => exact (ih bounded enclosed exactly).1.negated.atomic
  | binary op left right ihl ihr =>
      obtain ⟨base, enclosedLeft, enclosedRight⟩ := enclosed
      have first := ihl (fun i found => bounded i (by simp [dependsOn, found])) enclosedLeft
        fun a member => exactly a (List.mem_append_left _ member)
      have second := ihr (fun i found => bounded i (by simp [dependsOn, found])) enclosedRight
        fun a member => exactly a (List.mem_append_right _ member)
      -- Every operand may show a sign, except for a base, which has to be an atom.
      exact (first.1.joined (fun power => first.2 (base power)) second.1).atomic
  | call f argument ih => exact ((ih bounded enclosed exactly).1.called f).atomic

end Values

end LeastSquares.Formula
