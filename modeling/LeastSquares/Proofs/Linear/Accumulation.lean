import LeastSquares.Linear.Dense
import LeastSquares.Proofs.Scalars

namespace LeastSquares

open Scalar

variable {α : Type} [Scalar α] {n : Nat}

section InnerProducts

variable [NaNLaws α]

theorem SumsTo.isNaN_of_mem {addends : Multiset α} {total : α} (sums : SumsTo addends total) {a : α}
    (member : a ∈ addends) (poisoned : isNaN a = true) : isNaN total = true := by
  induction sums with
  | zero => exact absurd member (Multiset.notMem_zero a)
  | single b =>
      obtain rfl := Multiset.mem_singleton.mp member
      exact poisoned
  | add _ _ left right =>
      rcases Multiset.mem_add.mp member with here | there
      · exact NaNLaws.isNaN_add (.inl (left here))
      · exact NaNLaws.isNaN_add (.inr (right there))

variable {v w : Vector α n} {total : α}

theorem SumsTo.isNaN_of_product (sums : SumsTo (products v w) total) (i : Fin n)
    (poisoned : isNaN (v.get i * w.get i) = true) : isNaN total = true :=
  sums.isNaN_of_mem (mem_products v w i) poisoned

theorem SumsTo.numbers (sums : SumsTo (products v w) total) (number : isNaN total = false)
    (i : Fin n) : isNaN (v.get i) = false ∧ isNaN (w.get i) = false := by
  have spoiled (poisoned : isNaN (v.get i) = true ∨ isNaN (w.get i) = true) : False := by
    rw [sums.isNaN_of_product i (NaNLaws.isNaN_mul poisoned)] at number
    cases number
  constructor
  · exact Bool.eq_false_iff.mpr fun found => spoiled (.inl found)
  · exact Bool.eq_false_iff.mpr fun found => spoiled (.inr found)

theorem number_dot_self (numbers : ∀ i, isNaN (v.get i) = false) :
    isNaN (dot v v) = false ∧ isNaN (dot v v / ((2 : Nat) : α)) = false := by
  refine NaNLaws.number_sumOfSquares (forall_mem_products.mpr fun i => ?_) (sumsTo_dot v v)
  exact ⟨v.get i, numbers i, rfl⟩

end InnerProducts

section Norms

theorem isNaN_foldl_norm [NamedNaN α] (entries : List α) {norm : α}
    (poisoned : isNaN norm = true ∨ ∃ a ∈ entries, isNaN a = true) :
    isNaN (entries.foldl (fun norm entry =>
      if isNaN norm || isNaN entry then nan else larger norm (Scalar.abs entry)) norm) = true := by
  induction entries generalizing norm with
  | nil => simpa using poisoned
  | cons entry entries ih =>
      apply ih
      rcases poisoned with already | ⟨a, member, found⟩
      · exact .inl (by simpa [already] using NamedNaN.isNaN_nan already)
      · rcases List.mem_cons.mp member with rfl | later
        · exact .inl (by simpa [found] using NamedNaN.isNaN_nan found)
        · exact .inr ⟨a, later, found⟩

theorem isNaN_infNorm [NamedNaN α] {v : Vector α n} (i : Fin n)
    (poisoned : isNaN (v.get i) = true) : isNaN (infNorm v) = true := by
  rw [infNorm, ← Vector.foldl_toList]
  exact isNaN_foldl_norm _ (.inr ⟨v.get i, by simp [get_eq_getElem], poisoned⟩)

variable [OrderLaws α]

theorem larger_of_numbers {a b : α} (left : isNaN a = false) (right : isNaN b = false) :
    isNaN (larger a b) = false ∧ ∀ c, larger a b < c ↔ a < c ∧ b < c := by
  rw [larger, left, right]
  by_cases below : a < b
  · rw [if_neg (by decide), if_neg (by decide), if_pos below]
    exact ⟨right, fun c => ⟨fun less => ⟨OrderLaws.lt_trans below less, less⟩, And.right⟩⟩
  · rw [if_neg (by decide), if_neg (by decide), if_neg below]
    exact ⟨left, fun c => ⟨fun less => ⟨less, OrderLaws.lt_of_not_lt left right below less⟩,
      And.left⟩⟩

theorem foldl_norm_of_numbers (entries : List α) {norm : α} (start : isNaN norm = false)
    (numbers : ∀ a ∈ entries, isNaN a = false) :
    let total := entries.foldl (fun norm entry =>
      if isNaN norm || isNaN entry then nan else larger norm (Scalar.abs entry)) norm
    isNaN total = false ∧ ∀ c, total < c ↔ norm < c ∧ ∀ a ∈ entries, Scalar.abs a < c := by
  induction entries generalizing norm with
  | nil => exact ⟨start, fun c => by simp⟩
  | cons entry entries ih =>
      have number := numbers entry List.mem_cons_self
      obtain ⟨next, below⟩ :=
        larger_of_numbers start ((OrderLaws.isNaN_abs entry).trans number)
      have rest := ih next fun a member => numbers a (List.mem_cons_of_mem _ member)
      simp only [List.foldl_cons, start, number, Bool.or_false, Bool.false_eq_true, if_false]
      refine ⟨rest.1, fun c => ?_⟩
      rw [rest.2, below, List.forall_mem_cons, and_assoc]

theorem infNorm_of_numbers {v : Vector α n} (numbers : ∀ i, isNaN (v.get i) = false) :
    isNaN (infNorm v) = false ∧
      ∀ c, infNorm v < c ↔ ((0 : Nat) : α) < c ∧ ∀ i, Scalar.abs (v.get i) < c := by
  have fold := foldl_norm_of_numbers v.toList OrderLaws.isNaN_zero (forall_mem_toList.mpr numbers)
  rw [infNorm, ← Vector.foldl_toList]
  refine ⟨fold.1, fun c => ?_⟩
  rw [fold.2, forall_mem_toList]

theorem isNaN_infNorm_iff {v : Vector α n} :
    isNaN (infNorm v) = true ↔ ∃ i, isNaN (v.get i) = true := by
  constructor
  · intro poisoned
    by_contra none
    have numbers (i : Fin n) : isNaN (v.get i) = false :=
      Bool.eq_false_iff.mpr fun found => none ⟨i, found⟩
    rw [(infNorm_of_numbers numbers).1] at poisoned
    cases poisoned
  · rintro ⟨i, poisoned⟩
    exact isNaN_infNorm i poisoned

theorem infNorm_lt_iff {v : Vector α n} (nonempty : 0 < n) (numbers : ∀ i, isNaN (v.get i) = false)
    (c : α) : infNorm v < c ↔ ∀ i, Scalar.abs (v.get i) < c := by
  rw [(infNorm_of_numbers numbers).2]
  refine ⟨And.right, fun all => ⟨?_, all⟩⟩
  have first : Fin n := ⟨0, nonempty⟩
  exact OrderLaws.lt_of_not_lt ((OrderLaws.isNaN_abs _).trans (numbers first)) OrderLaws.isNaN_zero
    (OrderLaws.not_abs_lt_zero _) (all first)

end Norms

end LeastSquares
