import LeastSquares.Proofs.Linear.Solutions

namespace LeastSquares

open Matrix

variable {n : Nat}

namespace DenseMatrix

theorem posDef_gram_addDiagonal {m : Nat} (a : DenseMatrix ℝ m n) {shift : ℝ}
    (positive : 0 < shift) : (a.gram.addDiagonal shift).toMatrix.PosDef := by
  rw [toMatrix_addDiagonal, toMatrix_gram, ← conjTranspose_eq_transpose_of_trivial]
  exact (PosDef.one.smul positive).posSemidef_add (posSemidef_conjTranspose_mul_self a.toMatrix)

end DenseMatrix

namespace Triangular

/-- A vector for what remains, completed so that the first entry of its image vanishes. -/
theorem mulVec_completed {a : DenseMatrix ℝ (n + 1) (n + 1)} {pivot : ℝ} {below : Vector ℝ n}
    (symmetric : a.toMatrix.IsSymm) (positive : 0 < pivot) (corner : a.entry 0 0 = pivot * pivot)
    (column : ∀ i : Fin n, a.entry i.succ 0 = below.get i * pivot) (rest : Vector ℝ n) :
    a.toMatrix *ᵥ (prepend (-(below.get ⬝ᵥ rest.get) / pivot) rest).get =
      vecCons 0 ((DenseMatrix.ofFn fun i j =>
        a.entry i.succ j.succ - below.get i * below.get j).toMatrix *ᵥ rest.get) := by
  apply mulVec_prepend
  · simp only [row_eq symmetric column, mul_assoc, ← Finset.mul_sum, corner, dotProduct,
      cons_val_zero]
    field_simp
    ring
  · intro i
    rw [column i]
    simp only [cons_val_succ, mulVec, dotProduct, DenseMatrix.toMatrix_apply,
      DenseMatrix.entry_ofFn, sum_sub_mul]
    field_simp
    ring

theorem posDef_remaining {a : DenseMatrix ℝ (n + 1) (n + 1)} {pivot : ℝ} {below : Vector ℝ n}
    (definite : a.toMatrix.PosDef) (positive : 0 < pivot) (corner : a.entry 0 0 = pivot * pivot)
    (column : ∀ i : Fin n, a.entry i.succ 0 = below.get i * pivot) :
    (DenseMatrix.ofFn fun i j =>
      a.entry i.succ j.succ - below.get i * below.get j).toMatrix.PosDef := by
  have symmetric := isHermitian_iff_isSymm.mp definite.isHermitian
  refine .of_dotProduct_mulVec_pos
    (isHermitian_iff_isSymm.mpr (isSymm_remaining symmetric below)) fun x nonzero => ?_
  obtain ⟨rest, rfl⟩ : ∃ rest : Vector ℝ n, rest.get = x :=
    ⟨Vector.ofFn x, get_ofFn x⟩
  -- The form of what remains at a vector is that of the whole matrix at the completed vector.
  have moved : (prepend (-(below.get ⬝ᵥ rest.get) / pivot) rest).get ≠ 0 := by
    rw [get_prepend]
    exact cons_nonzero_iff.mpr (.inr nonzero)
  have form := definite.dotProduct_mulVec_pos moved
  rwa [mulVec_completed symmetric positive corner column, star_trivial, get_prepend,
    cons_dotProduct_cons, mul_zero, zero_add] at form

theorem factor?_of_posDef {a : DenseMatrix ℝ n n} (definite : a.toMatrix.PosDef) :
    ∃ triangle, factor? a = some triangle := by
  induction n with
  | zero => exact ⟨nil, rfl⟩
  | succ n ih =>
      obtain ⟨pivot, below, positive, corner, column, round⟩ := factor?_round definite.diag_pos
      obtain ⟨inner, factored⟩ := ih (posDef_remaining definite positive corner column)
      exact ⟨cons pivot below inner, by rw [round, factored]; rfl⟩

def pivots : {n : Nat} → Triangular ℝ n → List ℝ
  | 0, nil => []
  | _ + 1, cons pivot _ inner => pivot :: inner.pivots

theorem pivots_pos {a : DenseMatrix ℝ n n} {triangle : Triangular ℝ n}
    (found : factor? a = some triangle) : ∀ pivot ∈ triangle.pivots, 0 < pivot := by
  induction n with
  | zero =>
      cases triangle
      exact List.forall_mem_nil _
  | succ n ih =>
      obtain ⟨pivot, below, inner, rfl, positive, -, -, factored⟩ := factor?_cons found
      exact List.forall_mem_cons.mpr ⟨positive, ih factored⟩

end Triangular

end LeastSquares
