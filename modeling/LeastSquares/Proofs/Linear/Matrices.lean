import Mathlib
import LeastSquares.Linear.Elimination
import LeastSquares.Proofs.RealLine
import LeastSquares.Proofs.Summation

namespace LeastSquares

open Matrix

section Entries

variable {α : Type} {n : Nat}

theorem ofFn_get (v : Vector α n) : Vector.ofFn v.get = v := by
  apply Vector.ext
  intro i bound
  simp only [Vector.getElem_ofFn, get_eq_getElem, Fin.getElem_fin]

theorem get_ofFn (f : Fin n → α) : (Vector.ofFn f).get = f :=
  funext (Vector.get_ofFn f)

theorem ext_get {v w : Vector α n} (same : ∀ i, v.get i = w.get i) : v = w := by
  rw [← ofFn_get v, ← ofFn_get w, funext same]

theorem set_get_self (v : Vector α n) (i : Fin n) : v.set i (v.get i) i.isLt = v :=
  Vector.set_getElem_self i.isLt

theorem eq_single (v : Vector α 1) : v = #v[v.get 0] := by
  apply Vector.ext
  intro i bound
  obtain rfl : i = 0 := by omega
  rfl

theorem get_dropFirst (v : Vector α (n + 1)) (i : Fin n) : (dropFirst v).get i = v.get i.succ :=
  Vector.get_ofFn _ i

theorem get_prepend_zero (entry : α) (rest : Vector α n) : (prepend entry rest).get 0 = entry :=
  first_prepend entry rest

theorem get_prepend_succ (entry : α) (rest : Vector α n) (i : Fin n) :
    (prepend entry rest).get i.succ = rest.get i := by
  rw [← get_dropFirst, dropFirst_prepend]

theorem get_prepend (entry : α) (rest : Vector α n) :
    (prepend entry rest).get = vecCons entry rest.get := by
  funext i
  cases i using Fin.cases with
  | zero => exact get_prepend_zero entry rest
  | succ i => exact get_prepend_succ entry rest i

namespace DenseMatrix

variable {m : Nat}

theorem get_transpose (a : DenseMatrix α m n) (j : Fin n) :
    (a.transpose.get j).get = fun i => a.entry i j :=
  funext fun i => a.entry_transpose j i

theorem transpose_transpose (a : DenseMatrix α m n) : a.transpose.transpose = a := by
  ext i rowBound j columnBound
  simp [transpose, ofFn, entry, get_eq_getElem]

theorem entry_neg [Scalar α] (a : DenseMatrix α m n) (i : Fin m) (j : Fin n) :
    a.neg.entry i j = -a.entry i j := by
  rw [entry, neg, Vector.get_map, Vector.get_map]
  rfl

end DenseMatrix

end Entries

variable {m n : Nat}

theorem sum_toList (v : Vector ℝ n) : v.toList.sum = ∑ i, v.get i := by
  conv_lhs => rw [← ofFn_get v, Vector.toList_ofFn, List.sum_ofFn]

theorem SumsTo.eq_sum {addends : Multiset ℝ} {total : ℝ} (sums : SumsTo addends total) :
    total = addends.sum := by
  induction sums with
  | zero => exact Nat.cast_zero
  | single a => rw [Multiset.sum_singleton]
  | add _ _ left right => rw [Multiset.sum_add, ← left, ← right]

theorem Scalar.sum_toList (v : Vector ℝ n) : Scalar.sum v.toList = ∑ i, v.get i := by
  rw [(sumsTo_sum v.toList).eq_sum, Multiset.sum_coe, List.sum_cons, Nat.cast_zero, neg_zero,
    zero_add, LeastSquares.sum_toList]

theorem columnSum_eq_sum (v : Vector ℝ n) : columnSum v = ∑ i, v.get i := by
  rw [(sumsTo_columnSum v).eq_sum, Multiset.sum_coe, sum_toList]

theorem SumsTo.eq_dotProduct {v w : Vector ℝ n} {total : ℝ} (sums : SumsTo (products v w) total) :
    total = v.get ⬝ᵥ w.get := by
  rw [sums.eq_sum, products, Multiset.sum_coe, sum_toList]
  simp only [get_zipWith, dotProduct]

theorem dot_eq_dotProduct (v w : Vector ℝ n) : dot v w = v.get ⬝ᵥ w.get :=
  (sumsTo_dot v w).eq_dotProduct

namespace DenseMatrix

def toMatrix (a : DenseMatrix ℝ m n) : Matrix (Fin m) (Fin n) ℝ :=
  Matrix.of a.entry

@[simp]
theorem toMatrix_apply (a : DenseMatrix ℝ m n) (i : Fin m) (j : Fin n) :
    a.toMatrix i j = a.entry i j :=
  rfl

theorem toMatrix_neg (a : DenseMatrix ℝ m n) : a.neg.toMatrix = -a.toMatrix :=
  Matrix.ext a.entry_neg

theorem toMatrix_gram (a : DenseMatrix ℝ m n) : a.gram.toMatrix = a.toMatrixᵀ * a.toMatrix := by
  ext i j
  rw [toMatrix_apply, entry_gram, (sumsTo_lineDot _ _).eq_dotProduct, get_transpose, get_transpose]
  rfl

theorem isSymm_gram (a : DenseMatrix ℝ m n) : a.gram.toMatrix.IsSymm := by
  rw [toMatrix_gram, IsSymm, transpose_mul, Matrix.transpose_transpose]

theorem transposeApply_eq_mulVec (a : DenseMatrix ℝ m n) (v : Vector ℝ m) :
    (a.transposeApply v).get = a.toMatrixᵀ *ᵥ v.get := by
  funext j
  rw [(sumsTo_transposeApply a v j).eq_dotProduct, get_transpose]
  rfl

theorem toMatrix_addDiagonal (a : DenseMatrix ℝ n n) (shift : ℝ) :
    (a.addDiagonal shift).toMatrix = a.toMatrix + shift • 1 := by
  ext i j
  rw [toMatrix_apply, entry_addDiagonal]
  by_cases same : i = j
  · simp [same]
  · simp [same]

theorem isSymm_addDiagonal {a : DenseMatrix ℝ n n} (symmetric : a.toMatrix.IsSymm) (shift : ℝ) :
    (a.addDiagonal shift).toMatrix.IsSymm := by
  rw [toMatrix_addDiagonal]
  exact symmetric.add (isSymm_one.smul shift)

end DenseMatrix

end LeastSquares
