import Mathlib.Algebra.BigOperators.Fin
import Mathlib.Tactic.Abel
import LeastSquares.Linear.Dense

namespace LeastSquares

theorem forall_mem_add {β : Type} {s t : Multiset β} {P : β → Prop} :
    (∀ a ∈ s + t, P a) ↔ (∀ a ∈ s, P a) ∧ ∀ a ∈ t, P a := by
  simp only [Multiset.mem_add, or_imp, forall_and]

variable {α : Type} [Scalar α] {n : Nat}

/-- A result of adding up scalars, in some order and with some brackets. The laws of sums that hold
of every such result need not follow the partial sums that a column is added up by. -/
inductive SumsTo : Multiset α → α → Prop where
  | zero : SumsTo 0 ((0 : Nat) : α)
  | single (a : α) : SumsTo {a} a
  | add {s t : Multiset α} {a b : α} : SumsTo s a → SumsTo t b → SumsTo (s + t) (a + b)

theorem SumsTo.foldl {s : Multiset α} {start : α} (first : SumsTo s start) (addends : List α) :
    SumsTo (s + (addends : Multiset α)) (addends.foldl (· + ·) start) := by
  induction addends generalizing s start with
  | nil => rwa [Multiset.coe_nil, add_zero]
  | cons a addends ih =>
      have next := ih (first.add (.single a))
      rwa [add_assoc, Multiset.singleton_add, Multiset.cons_coe] at next

theorem SumsTo.closed {P : α → Prop} {addends : Multiset α} {total : α}
    (sums : SumsTo addends total) (zero : P ((0 : Nat) : α))
    (add : ∀ {a b}, P a → P b → P (a + b)) (each : ∀ a ∈ addends, P a) : P total := by
  induction sums with
  | zero => exact zero
  | single a => exact each a (Multiset.mem_singleton_self a)
  | add _ _ left right =>
      obtain ⟨here, there⟩ := forall_mem_add.mp each
      exact add (left here) (right there)

section Lanes

variable {lanes : Vector α 8} {parts : Fin 8 → Multiset α}

theorem sumsTo_joinLanes (each : ∀ k, SumsTo (parts k) (lanes.get k)) :
    SumsTo (∑ k, parts k) (joinLanes lanes) := by
  have joined := (((SumsTo.zero.add ((each 0).add (each 4))).add ((each 1).add (each 5))).add
    ((each 2).add (each 6))).add ((each 3).add (each 7))
  have order : ∑ k, parts k = 0 + (parts 0 + parts 4) + (parts 1 + parts 5) +
      (parts 2 + parts 6) + (parts 3 + parts 7) := by
    rw [Fin.sum_univ_eight]
    abel
  rw [order]
  exact joined

theorem sumsTo_addLanes (addends : List α) (each : ∀ k, SumsTo (parts k) (lanes.get k)) :
    SumsTo (∑ k, parts k + (addends : Multiset α)) (addLanes lanes addends) := by
  fun_induction addLanes lanes addends generalizing parts with
  | case1 lanes a b c d e f g h rest ih =>
      let block : Vector α 8 := #v[a, b, c, d, e, f, g, h]
      have next := ih fun k => by
        rw [get_zipWith]
        exact (each k).add (.single (block.get k))
      rw [Finset.sum_add_distrib, add_assoc, Fin.sum_univ_eight fun k => {block.get k}] at next
      exact next
  | case2 lanes rest short => exact (sumsTo_joinLanes each).foldl rest

end Lanes

theorem sumsTo_sum (addends : List α) :
    SumsTo ((-((0 : Nat) : α) :: addends : List α) : Multiset α) (Scalar.sum addends) := by
  have sums := (SumsTo.single (-((0 : Nat) : α))).foldl addends
  rwa [Multiset.singleton_add, Multiset.cons_coe] at sums

theorem sumsTo_columnSum (column : Vector α n) : SumsTo column.toList (columnSum column) := by
  have empty (k : Fin 8) : SumsTo 0 ((Vector.replicate 8 ((0 : Nat) : α)).get k) := by
    rw [get_eq_getElem, Fin.getElem_fin, Vector.getElem_replicate]
    exact .zero
  have sums := sumsTo_addLanes column.toList empty
  rwa [Finset.sum_const_zero, zero_add] at sums

def products (v w : Vector α n) : Multiset α :=
  (Vector.zipWith (· * ·) v w).toList

theorem forall_mem_products {v w : Vector α n} {P : α → Prop} :
    (∀ a ∈ products v w, P a) ↔ ∀ i, P (v.get i * w.get i) := by
  simp only [products, Multiset.mem_coe, forall_mem_toList, get_zipWith]

theorem mem_products (v w : Vector α n) (i : Fin n) : v.get i * w.get i ∈ products v w :=
  forall_mem_products.mp (fun _ member => member) i

theorem sumsTo_dot (v w : Vector α n) : SumsTo (products v w) (dot v w) :=
  sumsTo_columnSum (Vector.zipWith (· * ·) v w)

theorem sumsTo_lineDot (v w : Vector α n) : SumsTo (products v w) (lineDot v w) := by
  have sums := SumsTo.zero.foldl (Vector.zipWith (· * ·) v w).toList
  rwa [zero_add, Vector.foldl_toList] at sums

theorem sumsTo_transposeApply {m : Nat} (a : DenseMatrix α m n) (v : Vector α m) (j : Fin n) :
    SumsTo (products (a.transpose.get j) v) ((a.transposeApply v).get j) := by
  rw [DenseMatrix.get_transposeApply]
  split
  · exact sumsTo_dot _ v
  · exact sumsTo_lineDot _ v

end LeastSquares
