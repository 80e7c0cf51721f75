import LeastSquares.Proofs.Formula.Recognition
import LeastSquares.Proofs.Formula.Shapes
import Mathlib.Data.String.Basic
import Mathlib.Tactic.Ring

namespace LeastSquares.Formula

open Text

variable {α : Type}

theorem one_le_size (formula : Formula α) : 1 ≤ formula.size := by
  cases formula <;> grind [size]

theorem one_le_height (formula : Formula α) : 1 ≤ formula.height := by
  cases formula <;> grind [height]

/-! ## Folding adds no more than the node it folds -/

section Folding

variable (u v : Formula α)

theorem size_signedProduct_le : (signedProduct u v).size ≤ u.size + v.size + 1 := by
  rcases signedProduct_cases u v with ⟨a, b, rfl, rfl, eq⟩ | ⟨a, rfl, eq⟩ | ⟨b, rfl, eq⟩ | eq <;>
    grind [size]

theorem height_signedProduct_le : (signedProduct u v).height ≤ max u.height v.height + 2 := by
  rcases signedProduct_cases u v with ⟨a, b, rfl, rfl, eq⟩ | ⟨a, rfl, eq⟩ | ⟨b, rfl, eq⟩ | eq <;>
    grind [height]

theorem size_signedQuotient_le : (signedQuotient u v).size ≤ u.size + v.size + 1 := by
  rcases signedQuotient_cases u v with ⟨a, rfl, eq⟩ | eq <;> grind [size]

theorem height_signedQuotient_le : (signedQuotient u v).height ≤ max u.height v.height + 2 := by
  rcases signedQuotient_cases u v with ⟨a, rfl, eq⟩ | eq <;> grind [height]

variable [Scalar α]

theorem size_foldNeg_le : u.foldNeg.size ≤ u.size + 1 := by
  rcases foldNeg_cases u with ⟨value, eq⟩ | ⟨operand, rfl, eq⟩ | eq <;> grind [size]

theorem height_foldNeg_le : u.foldNeg.height ≤ u.height + 1 := by
  rcases foldNeg_cases u with ⟨value, eq⟩ | ⟨operand, rfl, eq⟩ | eq <;> grind [height]

theorem size_foldAdd_le : (foldAdd u v).size ≤ u.size + v.size + 1 := by
  rcases foldAdd_cases u v with ⟨value, eq⟩ | eq | eq | ⟨operand, rfl, eq⟩ | eq <;> grind [size]

theorem height_foldAdd_le : (foldAdd u v).height ≤ max u.height v.height + 1 := by
  rcases foldAdd_cases u v with ⟨value, eq⟩ | eq | eq | ⟨operand, rfl, eq⟩ | eq <;> grind [height]

theorem size_foldSub_le : (foldSub u v).size ≤ u.size + v.size + 1 := by
  have negated := v.size_foldNeg_le
  rcases foldSub_cases u v with ⟨value, eq⟩ | eq | eq | eq <;> grind [size]

theorem height_foldSub_le : (foldSub u v).height ≤ max u.height v.height + 1 := by
  have negated := v.height_foldNeg_le
  rcases foldSub_cases u v with ⟨value, eq⟩ | eq | eq | eq <;> grind [height]

theorem size_foldMul_le : (foldMul u v).size ≤ u.size + v.size + 1 := by
  have negated := u.size_foldNeg_le
  have negatedToo := v.size_foldNeg_le
  have signed := size_signedProduct_le u v
  rcases foldMul_cases u v with ⟨value, eq⟩ | eq | eq | eq | eq | eq <;>
    grind [size, one_le_size]

theorem height_foldMul_le : (foldMul u v).height ≤ max u.height v.height + 2 := by
  have negated := u.height_foldNeg_le
  have negatedToo := v.height_foldNeg_le
  have signed := height_signedProduct_le u v
  rcases foldMul_cases u v with ⟨value, eq⟩ | eq | eq | eq | eq | eq <;> grind [height]

theorem size_foldDiv_le : (foldDiv u v).size ≤ u.size + v.size + 1 := by
  have signed := size_signedQuotient_le u v
  rcases foldDiv_cases u v with ⟨value, eq⟩ | eq | eq <;> grind [size]

theorem height_foldDiv_le : (foldDiv u v).height ≤ max u.height v.height + 2 := by
  have signed := height_signedQuotient_le u v
  rcases foldDiv_cases u v with ⟨value, eq⟩ | eq | eq <;> grind [height]

theorem size_foldPow_le : (foldPow u v).size ≤ u.size + v.size + 1 := by
  rcases foldPow_cases u v with ⟨value, eq⟩ | eq | eq <;> grind [size]

theorem height_foldPow_le : (foldPow u v).height ≤ max u.height v.height + 1 := by
  rcases foldPow_cases u v with ⟨value, eq⟩ | eq | eq <;> grind [height]

theorem size_foldCall_le (f : Elementary) : (foldCall f u).size ≤ u.size + 1 := by
  rcases foldCall_cases u f with ⟨value, eq⟩ | eq <;> grind [size]

theorem height_foldCall_le (f : Elementary) : (foldCall f u).height ≤ u.height + 1 := by
  rcases foldCall_cases u f with ⟨value, eq⟩ | eq <;> grind [height]

end Folding

/-! ## One rule of differentiation -/

section Rules

variable [Scalar α] (u v : Formula α)

theorem size_outerDerivative_le (f : Elementary) : (outerDerivative f u).size ≤ u.size + 5 := by
  cases f <;> grind [outerDerivative, whole, size, size_foldNeg_le, size_foldMul_le,
    size_foldDiv_le, size_foldPow_le, size_foldCall_le]

theorem height_outerDerivative_le (f : Elementary) :
    (outerDerivative f u).height ≤ u.height + 5 := by
  have := u.one_le_height
  cases f <;> grind [outerDerivative, whole, height, height_foldNeg_le, height_foldMul_le,
    height_foldDiv_le, height_foldPow_le, height_foldCall_le]

theorem size_powerDerivative_le (du dv : Formula α) (baseVaries exponentVaries : Bool) :
    (powerDerivative u v du dv baseVaries exponentVaries).size ≤
      du.size + dv.size + 3 * u.size + 2 * v.size + 7 := by
  cases baseVaries <;> cases exponentVaries <;>
    grind [powerDerivative, whole, size, size_foldAdd_le, size_foldSub_le, size_foldMul_le,
      size_foldDiv_le, size_foldPow_le, size_foldCall_le]

theorem height_powerDerivative_le (du dv : Formula α) (baseVaries exponentVaries : Bool) :
    (powerDerivative u v du dv baseVaries exponentVaries).height ≤
      max (max du.height dv.height) (max u.height v.height) + 7 := by
  have := v.one_le_height
  cases baseVaries <;> cases exponentVaries <;>
    grind [powerDerivative, whole, height, height_foldAdd_le, height_foldSub_le,
      height_foldMul_le, height_foldDiv_le, height_foldPow_le, height_foldCall_le]

theorem size_derivative_binary_le (index : Nat) (op : Operator) :
    ((binary op u v).derivative index).size ≤
      (u.derivative index).size + (v.derivative index).size + 3 * u.size + 2 * v.size + 7 := by
  cases op with
  | add => grind [derivative, size_foldAdd_le]
  | sub => grind [derivative, size_foldSub_le]
  | mul => grind [derivative, size_foldAdd_le, size_foldMul_le]
  | div =>
      grind [derivative, whole, size, size_foldSub_le, size_foldMul_le, size_foldDiv_le,
        size_foldPow_le]
  | pow => exact size_powerDerivative_le ..

theorem height_derivative_binary_le (index : Nat) (op : Operator) :
    ((binary op u v).derivative index).height ≤
      max (max (u.derivative index).height (v.derivative index).height)
        (max u.height v.height) + 7 := by
  have := v.one_le_height
  cases op with
  | add => grind [derivative, height_foldAdd_le]
  | sub => grind [derivative, height_foldSub_le]
  | mul => grind [derivative, height_foldAdd_le, height_foldMul_le]
  | div =>
      grind [derivative, whole, height, height_foldSub_le, height_foldMul_le,
        height_foldDiv_le, height_foldPow_le]
  | pow => exact height_powerDerivative_le ..

theorem size_derivative_call_le (index : Nat) (f : Elementary) :
    ((call f u).derivative index).size ≤ (u.derivative index).size + u.size + 6 := by
  grind [derivative, whole, size, size_foldMul_le, size_outerDerivative_le]

theorem height_derivative_call_le (index : Nat) (f : Elementary) :
    ((call f u).derivative index).height ≤ max (u.derivative index).height u.height + 7 := by
  grind [derivative, whole, height, height_foldMul_le, height_outerDerivative_le]

end Rules

/-! ## Derivatives -/

/-- What two operands and their derivatives contribute stays below the bound for the node. The
heights on the right grow by one, which pays for every node of the operands once more. -/
theorem growth_le {sizeLeft sizeRight heightLeft heightRight grownLeft grownRight : Nat}
    (left : grownLeft ≤ 5 * sizeLeft * heightLeft) (right : grownRight ≤ 5 * sizeRight * heightRight)
    (leaf : 1 ≤ heightLeft) :
    grownLeft + grownRight + 3 * sizeLeft + 2 * sizeRight + 7 ≤
      5 * (1 + sizeLeft + sizeRight) * (max heightLeft heightRight + 1) := by
  have low : grownLeft ≤ 5 * sizeLeft * max heightLeft heightRight :=
    left.trans (Nat.mul_le_mul_left _ (Nat.le_max_left ..))
  have lowToo : grownRight ≤ 5 * sizeRight * max heightLeft heightRight :=
    right.trans (Nat.mul_le_mul_left _ (Nat.le_max_right ..))
  have tall : 1 ≤ max heightLeft heightRight := leaf.trans (Nat.le_max_left ..)
  generalize max heightLeft heightRight = tallest at low lowToo tall ⊢
  calc
    grownLeft + grownRight + 3 * sizeLeft + 2 * sizeRight + 7 ≤
        5 * sizeLeft * tallest + 5 * sizeRight * tallest + 5 * tallest +
          5 * (1 + sizeLeft + sizeRight) := by omega
    _ = 5 * (1 + sizeLeft + sizeRight) * (tallest + 1) := by ring

theorem growth_le_of_one {size height grown : Nat} (operand : grown ≤ 5 * size * height)
    (leaf : 1 ≤ height) : grown + 3 * size + 7 ≤ 5 * (1 + size) * (height + 1) := by
  simpa using growth_le operand (Nat.zero_le (5 * 0 * 0)) leaf

section Derivatives

variable [Scalar α]

theorem size_derivative_le (formula : Formula α) (index : Nat) :
    (formula.derivative index).size ≤ 5 * formula.size * formula.height := by
  induction formula with
  | number _ | sample | param _ => simp [derivative, whole, size, height]
  | neg operand ih =>
      have negated := (operand.derivative index).size_foldNeg_le
      have bound := growth_le_of_one ih operand.one_le_height
      simp only [derivative, size, height]
      omega
  | binary op u v ihu ihv =>
      exact (size_derivative_binary_le u v index op).trans (growth_le ihu ihv u.one_le_height)
  | call f argument ih =>
      have rule := size_derivative_call_le argument index f
      have bound := growth_le_of_one ih argument.one_le_height
      simp only [size, height]
      omega

theorem height_derivative_le (formula : Formula α) (index : Nat) :
    (formula.derivative index).height ≤ 7 * formula.height := by
  induction formula with
  | number _ | sample | param _ => simp [derivative, whole, height]
  | neg operand ih =>
      have negated := (operand.derivative index).height_foldNeg_le
      simp only [derivative, height]
      omega
  | binary op u v ihu ihv =>
      have rule := height_derivative_binary_le u v index op
      simp only [height]
      omega
  | call f argument ih =>
      have rule := height_derivative_call_le argument index f
      simp only [height]
      omega

end Derivatives

/-! ## Formulas from text -/

theorem Names.size_eq [Scalar α] {name : List Char} {leaf : Formula α} (named : Names name leaf) :
    leaf.size = 1 := by
  cases named <;> rfl

theorem Derives.size_le [Scalar α] {category : Category} {nesting : Nat} {tokens : List Token}
    {formula : Formula α} (derived : Derives category nesting tokens formula) :
    formula.size ≤ tokens.length := by
  induction derived with
  | operand inner ih | unsigned inner ih | bare inner ih => exact ih
  | operation first joins second ih ihToo | raised first second ih ihToo =>
      simp only [size, List.length_append, List.length_cons]
      omega
  | minus inner ih | plus inner ih =>
      simp only [size, List.length_cons]
      omega
  | number mantissa exponent => exact Nat.le_refl 1
  | name named => exact named.size_eq.le
  | called calls inner ih | enclosed inner ih =>
      simp only [size, List.length_cons, List.length_append, List.length_nil]
      omega

theorem Reads.shorter {text rest : List Char} {token : Token} (read : Reads text token rest) :
    rest.length < text.length := by
  cases read with
  | symbol symbolic => exact Nat.lt_succ_self _
  | word isWord longest =>
      obtain ⟨c, others, rfl, -, -⟩ := isWord
      simp only [List.length_append, List.length_cons]
      omega
  | number digits shifted longest complete =>
      obtain ⟨c, others, rfl, -⟩ := digits.begins
      simp only [List.length_append, List.length_cons]
      omega

theorem Spells.length_le {text : List Char} {tokens : List Token} (spells : Spells text tokens) :
    tokens.length ≤ text.length := by
  induction spells with
  | done white => exact Nat.zero_le _
  | next blank read others ih =>
      have shorter := read.shorter
      simp only [List.length_cons, List.length_append]
      omega

theorem length_le_utf8ByteSize (source : String) : source.toList.length ≤ source.utf8ByteSize := by
  rw [← String.utf8Len_toList]
  induction source.toList with
  | nil => exact Nat.zero_le _
  | cons c rest ih =>
      have bytes := c.utf8Size_pos
      rw [String.utf8Len_cons, List.length_cons]
      omega

theorem Sentence.size_le [Scalar α] {source : String} {formula : Formula α}
    (sentence : Sentence source formula) : formula.size ≤ source.utf8ByteSize := by
  obtain ⟨tokens, nesting, spells, derived, -, -⟩ := sentence
  exact derived.size_le.trans (spells.length_le.trans (length_le_utf8ByteSize source))

theorem Sentence.height_le [Scalar α] {source : String} {formula : Formula α}
    (sentence : Sentence source formula) : formula.height ≤ nestingLimit := by
  obtain ⟨tokens, nesting, -, -, -, low⟩ := sentence
  exact low

/-- Neither a formula that was read nor its derivatives grow out of hand: the tree is no larger than
its text and no taller than the limit of nesting, the derivative of any tree is larger by a multiple
of the height at most, and so the derivatives of what was read are bounded by the text alone. -/
theorem growth_bounded (α : Type) [Scalar α] :
    (∀ (source : String) (formula : Formula α), parse source = .ok formula →
      formula.height ≤ 128 ∧ formula.size ≤ source.utf8ByteSize) ∧
    (∀ (formula : Formula α) (index : Nat),
      (formula.derivative index).size ≤ 5 * formula.size * formula.height ∧
      (formula.derivative index).height ≤ 7 * formula.height) ∧
    ∀ (source : String) (formula : Formula α), parse source = .ok formula → ∀ index : Nat,
      (formula.derivative index).size ≤ 640 * source.utf8ByteSize ∧
      (formula.derivative index).height ≤ 896 := by
  have read {source : String} {formula : Formula α} (accepted : parse source = .ok formula) :
      formula.height ≤ 128 ∧ formula.size ≤ source.utf8ByteSize := by
    have sentence := sentence_of_parse accepted
    exact ⟨sentence.height_le, sentence.size_le⟩
  refine ⟨fun source formula => read, fun formula index => ?_,
    fun source formula accepted index => ?_⟩
  · exact ⟨formula.size_derivative_le index, formula.height_derivative_le index⟩
  · obtain ⟨low, small⟩ := read accepted
    constructor
    · calc
        (formula.derivative index).size ≤ 5 * formula.size * formula.height :=
          formula.size_derivative_le index
        _ ≤ 5 * source.utf8ByteSize * 128 :=
          Nat.mul_le_mul (Nat.mul_le_mul_left 5 small) low
        _ = 640 * source.utf8ByteSize := by ring
    · exact (formula.height_derivative_le index).trans (Nat.mul_le_mul_left 7 low)

end LeastSquares.Formula
