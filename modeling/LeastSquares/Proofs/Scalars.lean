import LeastSquares.Proofs.RealLine
import LeastSquares.Proofs.Summation

/-!
# Laws of scalars

The library assumes nothing of its scalars. Six groups of laws are stated here: for values that are
not numbers, for the order of those that are, for both comparisons of finite numbers, for zeros of
either sign, for the named constants, and for what takes a zero to a zero. Machine numbers obey all
of them; the real line, where every value is a number, is needed for the two orders and for the last
group only.
-/

namespace LeastSquares

open Scalar

class NamedNaN (α : Type) [Scalar α] : Prop where
  isNaN_nan {a : α} : isNaN a = true → isNaN (nan : α) = true

/-- What is not a number stays so in arithmetic and is below nothing, and the sums of the squares of
numbers are numbers, halved or not. -/
class NaNLaws (α : Type) [Scalar α] : Prop extends NamedNaN α where
  isNaN_add {a b : α} : isNaN a = true ∨ isNaN b = true → isNaN (a + b) = true
  isNaN_sub {a b : α} : isNaN a = true ∨ isNaN b = true → isNaN (a - b) = true
  isNaN_mul {a b : α} : isNaN a = true ∨ isNaN b = true → isNaN (a * b) = true
  isNaN_div {a b : α} : isNaN a = true ∨ isNaN b = true → isNaN (a / b) = true
  not_lt {a b : α} : isNaN a = true ∨ isNaN b = true → ¬ a < b
  number_sumOfSquares {squares : Multiset α} {total : α} :
    (∀ square ∈ squares, ∃ a, isNaN a = false ∧ square = a * a) → SumsTo squares total →
      isNaN total = false ∧ isNaN (total / ((2 : Nat) : α)) = false

class OrderLaws (α : Type) [Scalar α] : Prop extends NamedNaN α where
  isNaN_zero : isNaN ((0 : Nat) : α) = false
  isNaN_abs (a : α) : isNaN (Scalar.abs a) = isNaN a
  lt_trans {a b c : α} : a < b → b < c → a < c
  lt_of_not_lt {a b c : α} : isNaN a = false → isNaN b = false → ¬ a < b → a < c → b < c
  not_abs_lt_zero (a : α) : ¬ Scalar.abs a < ((0 : Nat) : α)

class FiniteOrderLaws (α : Type) [Scalar α] : Prop where
  number_of_isFinite {a : α} : isFinite a = true → isNaN a = false
  le_refl {a : α} : isFinite a = true → a ≤ a
  le_trans {a b c : α} : a ≤ b → b ≤ c → a ≤ c
  le_of_lt {a b : α} : a < b → a ≤ b
  le_of_not_lt {a b : α} : isFinite a = true → isFinite b = true → ¬ a < b → b ≤ a

/-- Arithmetic with what equals zero, whatever its sign. A zero takes every finite factor with it and
makes any other one not-a-number. -/
class ZeroLaws (α : Type) [Scalar α] : Prop extends NaNLaws α, OrderLaws α where
  zero_beq_zero : (((0 : Nat) : α) == ((0 : Nat) : α)) = true
  isFinite_zero {a : α} : (a == ((0 : Nat) : α)) = true → isFinite a = true
  isFinite_neg (a : α) : isFinite (-a) = isFinite a
  isNaN_of_isFinite {a : α} : isFinite a = true → isNaN a = false
  sub_self {a : α} : isFinite a = true → (a - a == ((0 : Nat) : α)) = true
  add_zero {a b : α} : (a == ((0 : Nat) : α)) = true → (b == ((0 : Nat) : α)) = true →
    (a + b == ((0 : Nat) : α)) = true
  mul_zero {a b : α} : isFinite a = true → (b == ((0 : Nat) : α)) = true →
    (a * b == ((0 : Nat) : α)) = true
  isNaN_mul_zero {a b : α} : isFinite a = false → (b == ((0 : Nat) : α)) = true →
    isNaN (a * b) = true
  half_zero {a : α} : (a == ((0 : Nat) : α)) = true →
    (a / ((2 : Nat) : α) == ((0 : Nat) : α)) = true
  abs_zero_lt {a c : α} : (a == ((0 : Nat) : α)) = true → ((0 : Nat) : α) < c → Scalar.abs a < c

class ConstantLaws (α : Type) [Scalar α] : Prop where
  eq_pi {a : α} : (a == Scalar.pi) = true → a = Scalar.pi
  eq_e {a : α} : (a == Scalar.e) = true → a = Scalar.e

class VanishingLaws (α : Type) [Scalar α] : Prop where
  zero_beq_zero : (((0 : Nat) : α) == ((0 : Nat) : α)) = true
  neg {a : α} : (a == ((0 : Nat) : α)) = true → (-a == ((0 : Nat) : α)) = true
  add {a b : α} : (a == ((0 : Nat) : α)) = true → (b == ((0 : Nat) : α)) = true →
    (a + b == ((0 : Nat) : α)) = true
  sub {a b : α} : (a == ((0 : Nat) : α)) = true → (b == ((0 : Nat) : α)) = true →
    (a - b == ((0 : Nat) : α)) = true
  mul_finite {a b : α} : (a == ((0 : Nat) : α)) = true → isFinite b = true →
    (a * b == ((0 : Nat) : α)) = true
  finite_mul {a b : α} : isFinite a = true → (b == ((0 : Nat) : α)) = true →
    (a * b == ((0 : Nat) : α)) = true
  div_finite {a b : α} : (a == ((0 : Nat) : α)) = true → isFinite b = true →
    (b == ((0 : Nat) : α)) = false → (a / b == ((0 : Nat) : α)) = true

theorem beq_zero_real {a : ℝ} : (a == ((0 : Nat) : ℝ)) = true ↔ a = 0 := by
  rw [← Nat.cast_zero (R := ℝ)]
  exact decide_eq_true_iff

instance : VanishingLaws ℝ where
  zero_beq_zero := beq_zero_real.mpr Nat.cast_zero
  neg zero := by
    rw [beq_zero_real] at zero ⊢
    rw [zero, neg_zero]
  add zero zeroToo := by
    rw [beq_zero_real] at zero zeroToo ⊢
    rw [zero, zeroToo, add_zero]
  sub zero zeroToo := by
    rw [beq_zero_real] at zero zeroToo ⊢
    rw [zero, zeroToo, sub_zero]
  mul_finite zero _ := by
    rw [beq_zero_real] at zero ⊢
    rw [zero, zero_mul]
  finite_mul _ zero := by
    rw [beq_zero_real] at zero ⊢
    rw [zero, mul_zero]
  div_finite zero _ _ := by
    rw [beq_zero_real] at zero ⊢
    rw [zero, zero_div]

instance : FiniteOrderLaws ℝ where
  number_of_isFinite _ := rfl
  le_refl _ := le_refl _
  le_trans := fun below above => below.trans above
  le_of_lt := fun below => below.le
  le_of_not_lt _ _ := not_lt.mp

instance : OrderLaws ℝ where
  isNaN_nan impossible := nomatch impossible
  isNaN_zero := rfl
  isNaN_abs _ := rfl
  lt_trans below above := below.trans above
  lt_of_not_lt _ _ notBelow below := (not_lt.mp notBelow).trans_lt below
  not_abs_lt_zero a := by
    rw [Nat.cast_zero]
    exact not_lt.mpr (abs_nonneg a)

end LeastSquares
