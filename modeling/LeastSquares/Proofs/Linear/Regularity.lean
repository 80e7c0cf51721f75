import LeastSquares.Proofs.Linear.Solutions

/-!
# Regular and singular matrices

Elimination goes through the same rounds for every right side and fails if one of them finds no
pivot (`eliminate?_eq_none_iff`). Over the reals these are the singular matrices, and a matrix that
has a Cholesky factor is regular. So the solver that tries the one and then the other refuses the
singular matrices and no others (`solveSymmetric?_eq_none_iff`).
-/

namespace LeastSquares

open Matrix

namespace DenseMatrix

section Rounds

variable {α : Type} [Scalar α] {n : Nat}

/-- The diagonal of the upper factor. A round with nothing but zeros in its leading column passes
over that column and leaves the other entries as they are. -/
def upperDiagonal : {n : Nat} → DenseMatrix α n n → List α
  | 0, _ => []
  | _ + 1, a =>
    corner a.pivoted ::
      if corner a.pivoted == ((0 : Nat) : α) then
        upperDiagonal (ofFn fun i j => entry a i.succ j.succ)
      else a.eliminated.upperDiagonal

theorem eliminate?_eq_none_iff {a : DenseMatrix α n n} {b : Vector α n} :
    a.eliminate? b = none ↔ ∃ pivot ∈ a.upperDiagonal, (pivot == ((0 : Nat) : α)) = true := by
  induction n with
  | zero => simp [eliminate?, upperDiagonal]
  | succ n ih =>
      simp only [upperDiagonal, List.mem_cons, exists_eq_or_imp]
      rw [eliminate?_succ]
      by_cases zero : (corner a.pivoted == ((0 : Nat) : α)) = true
      · rw [if_pos zero]
        exact iff_of_true rfl (.inl zero)
      · rw [if_neg zero, if_neg zero, Option.map_eq_none_iff, ih, or_iff_right zero]

end Rounds

section Pivots

variable {n : Nat}

theorem foldl_largest_le {ι : Type} (size : ι → ℝ) (indices : List ι) (start : ι) :
    let largest := indices.foldl (fun best i => if size best < size i then i else best) start
    size start ≤ size largest ∧ ∀ i ∈ indices, size i ≤ size largest := by
  induction indices generalizing start with
  | nil => exact ⟨le_refl _, List.forall_mem_nil _⟩
  | cons i indices ih =>
      obtain ⟨above, others⟩ := ih (if size start < size i then i else start)
      have both : size start ≤ size (if size start < size i then i else start) ∧
          size i ≤ size (if size start < size i then i else start) := by
        split_ifs with less
        · exact ⟨less.le, le_refl _⟩
        · exact ⟨le_refl _, not_lt.mp less⟩
      exact ⟨both.1.trans above, List.forall_mem_cons.mpr ⟨both.2.trans above, others⟩⟩

theorem leading_le_pivot (a : DenseMatrix ℝ (n + 1) (n + 1)) (i : Fin (n + 1)) :
    |a.entry i 0| ≤ |a.pivoted.entry 0 0| := by
  have pivot : a.pivoted.entry 0 0 = a.entry a.pivotRow 0 := by
    rw [entry, pivoted, exchangeFirst_get, Equiv.swap_apply_left]
    rfl
  rw [pivot]
  exact (foldl_largest_le (fun i => |a.entry i 0|) (List.finRange (n + 1)) _).2 i
    (List.mem_finRange i)

theorem isUnit_of_eliminate? {a : DenseMatrix ℝ n n} {b x : Vector ℝ n}
    (found : a.eliminate? b = some x) : IsUnit a.toMatrix := by
  refine mulVec_surjective_iff_isUnit.mp fun side => ?_
  cases solved : a.eliminate? (Vector.ofFn side) with
  | none =>
      have failed : a.eliminate? b = none := eliminate?_eq_none_iff.mpr
        (eliminate?_eq_none_iff.mp solved)
      rw [failed] at found
      cases found
  | some y =>
      exact ⟨y.get, (eliminate?_solves solved).trans (get_ofFn side)⟩

theorem kernel_of_eliminate? {a : DenseMatrix ℝ n n} {b : Vector ℝ n}
    (failed : a.eliminate? b = none) : ∃ x : Vector ℝ n, x.get ≠ 0 ∧ a.toMatrix *ᵥ x.get = 0 := by
  induction n with
  | zero => cases failed
  | succ n ih =>
      have zeros (m : Nat) : (Vector.replicate m (0 : ℝ)).get = 0 := by
        funext i
        simp [get_eq_getElem]
      by_cases pivot : a.pivoted.entry 0 0 = 0
      · -- The leading column vanishes, so the first unit vector is mapped to zero.
        have leading (i : Fin (n + 1)) : a.entry i 0 = 0 := by
          have below := leading_le_pivot a i
          rwa [pivot, abs_zero, abs_nonpos_iff] at below
        refine ⟨prepend 1 (Vector.replicate n 0), fun zero => ?_, mulVec_prepend ?_ fun i => ?_⟩
        · have first := congrFun zero 0
          rw [get_prepend_zero] at first
          exact one_ne_zero first
        · simp [leading]
        · simp [leading]
      · rw [eliminate?_of_pivot pivot, Option.map_eq_none_iff] at failed
        obtain ⟨rest, nonzero, solved⟩ := ih failed
        have side : (a.below (Vector.replicate (n + 1) 0)).get = 0 := by
          funext i
          rw [below, get_zipWith, get_dropFirst, first]
          simp [exchangeFirst_get]
        refine ⟨a.completed (Vector.replicate (n + 1) 0) rest, fun zero => nonzero ?_, ?_⟩
        · funext i
          have entry := congrFun zero i.succ
          rwa [completed, get_prepend_succ] at entry
        · rw [completed_solves pivot (solved.trans side.symm), zeros]

theorem eliminate?_eq_none_iff_singular {a : DenseMatrix ℝ n n} {b : Vector ℝ n} :
    a.eliminate? b = none ↔ ¬ IsUnit a.toMatrix := by
  constructor
  · intro failed regular
    obtain ⟨x, nonzero, solved⟩ := kernel_of_eliminate? failed
    have singular : a.toMatrix.det = 0 := exists_mulVec_eq_zero_iff.mp ⟨x.get, nonzero, solved⟩
    exact (isUnit_iff_isUnit_det _).mp regular |>.ne_zero singular
  · intro singular
    cases found : a.eliminate? b with
    | none => rfl
    | some x => exact absurd (isUnit_of_eliminate? found) singular

theorem zero_mem_upperDiagonal_iff {a : DenseMatrix ℝ n n} :
    0 ∈ a.upperDiagonal ↔ ¬ IsUnit a.toMatrix := by
  rw [← eliminate?_eq_none_iff_singular (b := .replicate n 0), eliminate?_eq_none_iff, Nat.cast_zero]
  constructor
  · exact fun member => ⟨0, member, decide_eq_true rfl⟩
  · exact fun ⟨pivot, member, zero⟩ => of_decide_eq_true zero ▸ member

end Pivots

section Symmetric

variable {n : Nat} {a : DenseMatrix ℝ n n}

theorem isUnit_of_factor? {triangle : Triangular ℝ n} (symmetric : a.toMatrix.IsSymm)
    (found : Triangular.factor? a = some triangle) : IsUnit a.toMatrix := by
  refine mulVec_surjective_iff_isUnit.mp fun side => ?_
  exact ⟨_, (Triangular.solves symmetric found (Vector.ofFn side)).trans (get_ofFn side)⟩

theorem solveSymmetric?_eq_none_iff (symmetric : a.toMatrix.IsSymm) {b : Vector ℝ n} :
    a.solveSymmetric? b = none ↔ ¬ IsUnit a.toMatrix := by
  rw [solveSymmetric?]
  split
  · next triangle factored =>
      exact iff_of_false (Option.some_ne_none _) (not_not.mpr (isUnit_of_factor? symmetric factored))
  · exact eliminate?_eq_none_iff_singular

end Symmetric

end DenseMatrix

end LeastSquares
