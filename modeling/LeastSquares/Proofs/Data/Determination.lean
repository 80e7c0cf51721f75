import Mathlib
import LeastSquares.Fit
import LeastSquares.Proofs.Data.Rows
import LeastSquares.Proofs.Linear.Accumulation
import LeastSquares.Proofs.MachineArithmetic

/-!
# The coefficient of determination of machine numbers

Whether there is a coefficient hangs on a computed sum of computed squares. It is zero exactly if
every observation is within a `negligible` distance of the computed mean, so observations of which
one is `sizeable` have no coefficient exactly if they all equal that mean. Constant observations
need not: the mean is rounded.
-/

namespace LeastSquares

open MachineNumber

section Definitions

variable {α : Type} [Scalar α] {n : Nat}

def mean (observed : Vector α n) : α :=
  columnSum observed / (n : α)

def deviation (observed : Vector α n) : α :=
  Scalar.sum (observed.toList.map fun value => (value - mean observed) * (value - mean observed))

theorem rSquared_eq_ite (observed residuals : Vector α n) :
    rSquared observed residuals =
      if deviation observed == ((0 : Nat) : α) then none
      else some (((1 : Nat) : α) - dot residuals residuals / deviation observed) := by
  rw [deviation, ← Vector.toList_map]
  rfl

end Definitions

section MachineNumbers

variable {n : Nat} {observed residuals : Vector Float n}

theorem deviation_spec (observed : Vector Float n) :
    Nonnegative (deviation observed).toModel.unpack ∧
      ((deviation observed == ((0 : Nat) : Float)) = true ↔
        ∀ value ∈ observed, Scalar.abs (value - mean observed) ≤ negligible) := by
  have start : (-((0 : Nat) : Float) == ((0 : Nat) : Float)) = true := by decide
  have squares : ∀ square ∈ observed.toList.map fun value =>
      (value - mean observed) * (value - mean observed), Nonnegative square.toModel.unpack :=
    List.forall_mem_map.mpr fun value _ => nonnegative_square _
  have sum := sum_nonnegative (sumsTo_sum _) <|
    List.forall_mem_cons.mpr ⟨fun _ => beq_zero_iff.mp start, squares⟩
  refine ⟨sum.1, sum.2.trans ?_⟩
  simp only [Multiset.mem_coe, List.forall_mem_cons, start, true_and, List.forall_mem_map,
    square_eq_zero_iff, Vector.mem_toList_iff]

theorem rSquared_eq_none_iff :
    rSquared observed residuals = none ↔
      ∀ value ∈ observed, Scalar.abs (value - mean observed) ≤ negligible := by
  rw [← (deviation_spec observed).2, rSquared_eq_ite]
  split_ifs with flat
  · exact iff_of_true rfl flat
  · exact iff_of_false nofun flat

-- From eight observations on, the partial sums tell: added up in a row, eight tenths are too few.
example : mean (Vector.replicate 8 (0.1 : Float)) = 0.1 ∧
    rSquared (Vector.replicate 8 (0.1 : Float)) (Vector.replicate 8 0) = none := by
  decide +kernel

theorem abs_sub_self_le {a : Float} (finite : Scalar.isFinite a = true) :
    Scalar.abs (a - a) ≤ negligible := by
  rw [← square_eq_zero_iff]
  have zero := ZeroLaws.sub_self finite
  exact ZeroLaws.mul_zero (ZeroLaws.isFinite_zero zero) zero

theorem forall_near_iff (finite : ∀ value ∈ observed, Scalar.isFinite value = true)
    {witness : Float} (member : witness ∈ observed) (large : sizeable ≤ Scalar.abs witness) :
    (∀ value ∈ observed, Scalar.abs (value - mean observed) ≤ negligible) ↔
      ∀ value ∈ observed, value = mean observed := by
  constructor
  · intro near value among
    have center : witness = mean observed := eq_of_sub_negligible (.inl large) (near witness member)
    exact eq_of_sub_negligible (.inr (center ▸ large)) (near value among)
  · intro constant value among
    rw [← constant value among]
    exact abs_sub_self_le (finite value among)

theorem nonnegative_dot_self (v : Vector Float n) : Nonnegative (dot v v).toModel.unpack :=
  (sum_nonnegative (sumsTo_dot v v) (forall_mem_products.mpr fun _ => nonnegative_square _)).1

theorem rSquared_le_one {v : Float} (found : rSquared observed residuals = some v)
    (number : Scalar.isNaN v = false) : v ≤ ((1 : Nat) : Float) := by
  rw [rSquared_eq_ite] at found
  split_ifs at found with flat
  cases found
  exact one_sub_le (stored_div_nonnegative (nonnegative_dot_self residuals)
    (deviation_spec observed).1 flat) number

/-- There is no coefficient exactly if every observation is negligibly far from the computed mean.
Where one observation is sizeable, that is to say: if all observations equal the computed mean. A
coefficient that is a number is at most one. -/
theorem rSquared_absent_iff (data : Dataset Float) (residuals : Vector Float data.size) :
    (rSquared data.y residuals = none ↔
      ∀ value ∈ data.y, Scalar.abs (value - mean data.y) ≤ negligible) ∧
    ((∃ value ∈ data.y, sizeable ≤ Scalar.abs value) →
      (rSquared data.y residuals = none ↔ ∀ value ∈ data.y, value = mean data.y)) ∧
    ∀ v, rSquared data.y residuals = some v → Scalar.isNaN v = false → v ≤ ((1 : Nat) : Float) := by
  refine ⟨rSquared_eq_none_iff, ?_, fun v => rSquared_le_one⟩
  rintro ⟨witness, member, large⟩
  rw [rSquared_eq_none_iff]
  exact forall_near_iff
    (fun value among => data.isFinite_of_mem_y (Vector.mem_toList_iff.mpr among)) member large

/-- Constant observations may have a coefficient, since their mean is rounded, and others may have
none, since their squared deviations are rounded to zero. -/
theorem rSquared_ignores_constancy :
    (∃ data : Dataset Float, data.rows = [(0, 0.1), (1, 0.1), (2, 0.1)] ∧
      (∀ a ∈ data.y, ∀ b ∈ data.y, a = b) ∧
      rSquared data.y (Vector.replicate data.size 0) ≠ none) ∧
    ∃ data : Dataset Float, data.rows = [(0, 0), (1, 1e-200)] ∧
      (∃ a ∈ data.y, ∃ b ∈ data.y, a ≠ b) ∧
      rSquared data.y (Vector.replicate data.size 0) = none := by
  refine ⟨⟨⟨[(0, 0.1), (1, 0.1), (2, 0.1)], by decide, by decide +kernel⟩, rfl, ?_, ?_⟩,
    ⟨⟨[(0, 0), (1, 1e-200)], by decide, by decide +kernel⟩, rfl, ?_, ?_⟩⟩
  · simp [Dataset.y]
  · have present : (rSquared (#v[0.1, 0.1, 0.1] : Vector Float 3) #v[0, 0, 0]).isSome = true := by
      decide +kernel
    exact fun absent => absurd (absent ▸ present) (by decide)
  · have different : ((0 : Float) == 1e-200) = false := by decide +kernel
    refine ⟨0, by simp [Dataset.y], 1e-200, by simp [Dataset.y], fun same => ?_⟩
    rw [← same] at different
    exact absurd different (by decide)
  · decide +kernel

end MachineNumbers

end LeastSquares
