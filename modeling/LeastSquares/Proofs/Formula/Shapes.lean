import LeastSquares.Formula.Derivative
import Mathlib.Tactic.SplitIfs

namespace LeastSquares.Formula

variable {α : Type} (u v : Formula α)

theorem signedProduct_cases :
    (∃ a b, u = neg a ∧ v = neg b ∧ signedProduct u v = binary .mul a b) ∨
      (∃ a, u = neg a ∧ signedProduct u v = neg (binary .mul a v)) ∨
      (∃ b, v = neg b ∧ signedProduct u v = neg (binary .mul u b)) ∨
      signedProduct u v = binary .mul u v := by
  unfold signedProduct
  split
  · exact .inl ⟨_, _, rfl, rfl, rfl⟩
  · exact .inr (.inl ⟨_, rfl, rfl⟩)
  · exact .inr (.inr (.inl ⟨_, rfl, rfl⟩))
  · exact .inr (.inr (.inr rfl))

theorem signedQuotient_cases :
    (∃ a, u = neg a ∧ signedQuotient u v = neg (binary .div a v)) ∨
      signedQuotient u v = binary .div u v := by
  unfold signedQuotient
  split
  · exact .inl ⟨_, rfl, rfl⟩
  · exact .inr rfl

section Folding

variable [Scalar α]

theorem foldNeg_cases :
    (∃ value, u.foldNeg = number value) ∨ (∃ operand, u = neg operand ∧ u.foldNeg = operand) ∨
      u.foldNeg = neg u := by
  cases u with
  | number value => exact .inl ⟨_, rfl⟩
  | neg operand => exact .inr (.inl ⟨operand, rfl, rfl⟩)
  | sample => exact .inr (.inr rfl)
  | param index => exact .inr (.inr rfl)
  | binary op left right => exact .inr (.inr rfl)
  | call f argument => exact .inr (.inr rfl)

theorem foldAdd_cases :
    (∃ value, foldAdd u v = number value) ∨ foldAdd u v = u ∨ foldAdd u v = v ∨
      (∃ operand, v = neg operand ∧ foldAdd u v = binary .sub u operand) ∨
      foldAdd u v = binary .add u v := by
  unfold foldAdd
  split
  · exact .inl ⟨_, rfl⟩
  · split_ifs
    · exact .inr (.inr (.inl rfl))
    · exact .inr (.inl rfl)
    · split
      · exact .inr (.inr (.inr (.inl ⟨_, rfl, rfl⟩)))
      · exact .inr (.inr (.inr (.inr rfl)))

theorem foldSub_cases :
    (∃ value, foldSub u v = number value) ∨ foldSub u v = u ∨ foldSub u v = v.foldNeg ∨
      foldSub u v = binary .sub u v := by
  unfold foldSub
  split
  · exact .inl ⟨_, rfl⟩
  · split_ifs
    · exact .inr (.inr (.inl rfl))
    · exact .inr (.inl rfl)
    · exact .inr (.inr (.inr rfl))

theorem foldMul_cases :
    (∃ value, foldMul u v = number value) ∨ foldMul u v = u ∨ foldMul u v = v ∨
      foldMul u v = u.foldNeg ∨ foldMul u v = v.foldNeg ∨ foldMul u v = signedProduct u v := by
  unfold foldMul
  split
  · exact .inl ⟨_, rfl⟩
  · split_ifs
    · exact .inl ⟨_, rfl⟩
    · exact .inr (.inr (.inl rfl))
    · exact .inr (.inl rfl)
    · exact .inr (.inr (.inr (.inr (.inl rfl))))
    · exact .inr (.inr (.inr (.inl rfl)))
    · exact .inr (.inr (.inr (.inr (.inr rfl))))

theorem foldDiv_cases :
    (∃ value, foldDiv u v = number value) ∨ foldDiv u v = u ∨ foldDiv u v = signedQuotient u v := by
  unfold foldDiv
  dsimp only
  split
  · split_ifs
    · exact .inl ⟨_, rfl⟩
    · exact .inr (.inl rfl)
    · exact .inr (.inr rfl)
    · exact .inl ⟨_, rfl⟩
  · split_ifs
    · exact .inl ⟨_, rfl⟩
    · exact .inr (.inl rfl)
    · exact .inr (.inr rfl)

theorem foldPow_cases :
    (∃ value, foldPow u v = number value) ∨ foldPow u v = u ∨ foldPow u v = binary .pow u v := by
  unfold foldPow
  split
  · exact .inl ⟨_, rfl⟩
  · split_ifs
    · exact .inl ⟨_, rfl⟩
    · exact .inr (.inl rfl)
    · exact .inr (.inr rfl)

theorem foldCall_cases (f : Elementary) :
    (∃ value, foldCall f u = number value) ∨ foldCall f u = call f u := by
  unfold foldCall
  split
  · exact .inl ⟨_, rfl⟩
  · exact .inr rfl

end Folding

/-- Every number has the property, a sign makes no difference to it, and sums, differences and
products inherit it from their operands. -/
structure Hereditary (holds : Formula α → Prop) : Prop where
  number (value : α) : holds (number value)
  neg {u : Formula α} : holds (neg u) ↔ holds u
  add {u v : Formula α} : holds u → holds v → holds (binary .add u v)
  sub {u v : Formula α} : holds u → holds v → holds (binary .sub u v)
  mul {u v : Formula α} : holds u → holds v → holds (binary .mul u v)

section Signs

variable {holds : Formula α → Prop} (hereditary : Hereditary holds) {u v}

include hereditary

theorem Hereditary.signedProduct (left : holds u) (right : holds v) : holds (signedProduct u v) := by
  rcases signedProduct_cases u v with ⟨a, b, rfl, rfl, eq⟩ | ⟨a, rfl, eq⟩ | ⟨b, rfl, eq⟩ | eq <;>
    rw [eq]
  · exact hereditary.mul (hereditary.neg.mp left) (hereditary.neg.mp right)
  · exact hereditary.neg.mpr (hereditary.mul (hereditary.neg.mp left) right)
  · exact hereditary.neg.mpr (hereditary.mul left (hereditary.neg.mp right))
  · exact hereditary.mul left right

theorem Hereditary.signedQuotient (quotient : ∀ {a}, holds a → holds (binary .div a v))
    (left : holds u) : holds (signedQuotient u v) := by
  rcases signedQuotient_cases u v with ⟨a, rfl, eq⟩ | eq <;> rw [eq]
  · exact hereditary.neg.mpr (quotient (hereditary.neg.mp left))
  · exact quotient left

end Signs

namespace Hereditary

variable [Scalar α] {holds : Formula α → Prop} (hereditary : Hereditary holds) {u v}

include hereditary

theorem whole (n : Nat) : holds (whole n) :=
  hereditary.number _

theorem foldNeg (operand : holds u) : holds u.foldNeg := by
  rcases foldNeg_cases u with ⟨value, eq⟩ | ⟨inner, rfl, eq⟩ | eq <;> rw [eq]
  · exact hereditary.number value
  · exact hereditary.neg.mp operand
  · exact hereditary.neg.mpr operand

theorem foldAdd (left : holds u) (right : holds v) : holds (foldAdd u v) := by
  rcases foldAdd_cases u v with ⟨value, eq⟩ | eq | eq | ⟨operand, rfl, eq⟩ | eq <;> rw [eq]
  · exact hereditary.number value
  · exact left
  · exact right
  · exact hereditary.sub left (hereditary.neg.mp right)
  · exact hereditary.add left right

theorem foldSub (left : holds u) (right : holds v) : holds (foldSub u v) := by
  rcases foldSub_cases u v with ⟨value, eq⟩ | eq | eq | eq <;> rw [eq]
  · exact hereditary.number value
  · exact left
  · exact hereditary.foldNeg right
  · exact hereditary.sub left right

theorem foldMul (left : holds u) (right : holds v) : holds (foldMul u v) := by
  rcases foldMul_cases u v with ⟨value, eq⟩ | eq | eq | eq | eq | eq <;> rw [eq]
  · exact hereditary.number value
  · exact left
  · exact right
  · exact hereditary.foldNeg left
  · exact hereditary.foldNeg right
  · exact hereditary.signedProduct left right

theorem foldDiv (left : holds u) (quotient : ∀ {a}, holds a → holds (binary .div a v)) :
    holds (foldDiv u v) := by
  rcases foldDiv_cases u v with ⟨value, eq⟩ | eq | eq <;> rw [eq]
  · exact hereditary.number value
  · exact left
  · exact hereditary.signedQuotient quotient left

theorem foldPow (base : holds u) (power : holds (binary .pow u v)) : holds (foldPow u v) := by
  rcases foldPow_cases u v with ⟨value, eq⟩ | eq | eq <;> rw [eq]
  · exact hereditary.number value
  · exact base
  · exact power

theorem foldCall {f : Elementary} (called : holds (call f u)) : holds (foldCall f u) := by
  rcases foldCall_cases u f with ⟨value, eq⟩ | eq <;> rw [eq]
  · exact hereditary.number value
  · exact called

end Hereditary

end LeastSquares.Formula
