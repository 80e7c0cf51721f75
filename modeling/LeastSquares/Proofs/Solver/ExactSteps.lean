import LeastSquares.Proofs.Linear.Regularity
import LeastSquares.Proofs.Solver.Reduction

namespace LeastSquares

open Matrix

variable {n : Nat}

theorem dampedStep_eq_singularSystem_iff {hessian : DenseMatrix ℝ n n} {gradient : Vector ℝ n}
    {damping : ℝ} {iteration : Nat} :
    dampedStep hessian gradient damping iteration = .error (.singularSystem iteration damping) ↔
      (hessian.addDiagonal damping).solveSymmetric? (gradient.map (- ·)) = none := by
  rw [dampedStep]
  split
  · next step found => simp [found]
  · next failed => simp [failed]

theorem dampedStep_cases (hessian : DenseMatrix ℝ n n) (gradient : Vector ℝ n) (damping : ℝ)
    (iteration : Nat) :
    (∃ step, dampedStep hessian gradient damping iteration = .ok step) ∨
      dampedStep hessian gradient damping iteration = .error (.singularSystem iteration damping) := by
  rw [dampedStep]
  split
  · next step found => exact .inl ⟨step, rfl⟩
  · exact .inr rfl

/-- A damped step solves its equations if they have a unique solution and is the error that names the
iteration and the damping exactly if they have not, which a zero on the diagonal of the upper factor
tells. -/
theorem dampedStep_exact (hessian : DenseMatrix ℝ n n) (gradient : Vector ℝ n) (damping : ℝ)
    (iteration : Nat) (symmetric : hessian.toMatrix.IsSymm) :
    let damped := hessian.toMatrix + damping • (1 : Matrix (Fin n) (Fin n) ℝ)
    (IsUnit damped → ∃ step, dampedStep hessian gradient damping iteration = .ok step ∧
      damped *ᵥ step.get = -gradient.get) ∧
    (dampedStep hessian gradient damping iteration = .error (.singularSystem iteration damping) ↔
      ¬ IsUnit damped) ∧
    (¬ IsUnit damped ↔ 0 ∈ (hessian.addDiagonal damping).upperDiagonal) := by
  intro damped
  have same : (hessian.addDiagonal damping).toMatrix = damped := hessian.toMatrix_addDiagonal damping
  have refused : dampedStep hessian gradient damping iteration =
      .error (.singularSystem iteration damping) ↔ ¬ IsUnit damped := by
    rw [dampedStep_eq_singularSystem_iff, ← same]
    exact DenseMatrix.solveSymmetric?_eq_none_iff
      (DenseMatrix.isSymm_addDiagonal symmetric damping)
  refine ⟨fun regular => ?_, refused, ?_⟩
  · rcases dampedStep_cases hessian gradient damping iteration with ⟨step, solved⟩ | failed
    · refine ⟨step, solved, ?_⟩
      rw [add_mulVec, smul_mulVec, one_mulVec]
      exact dampedStep_solves symmetric solved
    · exact absurd regular (refused.mp failed)
  · rw [← same]
    exact DenseMatrix.zero_mem_upperDiagonal_iff.symm

noncomputable def mirrored : DenseMatrix ℝ 2 2 :=
  #v[#v[0, 1], #v[1, 0]]

theorem toMatrix_mirrored : mirrored.toMatrix = !![0, 1; 1, 0] := by
  ext i j
  fin_cases i <;> fin_cases j <;> rfl

theorem dampedStep_exact_mirrored :
    mirrored.toMatrix.IsSymm ∧ Triangular.factor? (mirrored.addDiagonal 0) = none ∧
      (∃ step, dampedStep mirrored #v[-3, -5] 0 1 = .ok step ∧ step.get = ![5, 3]) ∧
      dampedStep mirrored #v[-3, -5] 1 7 = .error (.singularSystem 7 1) ∧
      ∃ step, dampedStep mirrored #v[-3, -3] 2 1 = .ok step ∧ step.get = ![1, 1] := by
  have symmetric : mirrored.toMatrix.IsSymm := by
    rw [toMatrix_mirrored]
    exact IsSymm.ext fun i j => by fin_cases i <;> fin_cases j <;> rfl
  have matrix (damping : ℝ) : mirrored.toMatrix + damping • (1 : Matrix (Fin 2) (Fin 2) ℝ) =
      !![damping, 1; 1, damping] := by
    rw [toMatrix_mirrored]
    ext i j
    fin_cases i <;> fin_cases j <;> simp
  have unit (damping : ℝ) : IsUnit !![damping, 1; 1, damping] ↔ damping * damping - 1 ≠ 0 := by
    rw [isUnit_iff_isUnit_det, det_fin_two_of, one_mul, isUnit_iff_ne_zero]
  obtain ⟨plain, -⟩ := dampedStep_exact mirrored #v[-3, -5] 0 1 symmetric
  obtain ⟨-, singular, -⟩ := dampedStep_exact mirrored #v[-3, -5] 1 7 symmetric
  obtain ⟨damped, -⟩ := dampedStep_exact mirrored #v[-3, -3] 2 1 symmetric
  rw [matrix, unit] at plain singular damped
  -- Two equations in two unknowns, read off by row.
  have solution {x : Fin 2 → ℝ} {damping c d : ℝ}
      (equation : !![damping, 1; 1, damping] *ᵥ x = ![c, d]) :
      damping * x 0 + x 1 = c ∧ x 0 + damping * x 1 = d := by
    constructor
    · simpa [mulVec, dotProduct, Fin.sum_univ_two] using congrFun equation 0
    · simpa [mulVec, dotProduct, Fin.sum_univ_two] using congrFun equation 1
  have side (c d : ℝ) : -(#v[c, d] : Vector ℝ 2).get = ![-c, -d] := by
    funext i
    fin_cases i <;> rfl
  refine ⟨symmetric, ?_, ?_, singular.mpr (by norm_num), ?_⟩
  · have corner : (mirrored.addDiagonal 0).corner = 0 :=
      (mirrored.entry_addDiagonal 0 0 0).trans (add_zero 0)
    rw [Triangular.factor?, corner, Nat.cast_zero]
    exact if_neg (lt_irrefl 0)
  · obtain ⟨step, solved, equation⟩ := plain (by norm_num)
    rw [side] at equation
    obtain ⟨top, bottom⟩ := solution equation
    refine ⟨step, solved, funext fun i => ?_⟩
    fin_cases i
    · change step.get 0 = 5
      linarith
    · change step.get 1 = 3
      linarith
  · obtain ⟨step, solved, equation⟩ := damped (by norm_num)
    rw [side] at equation
    obtain ⟨top, bottom⟩ := solution equation
    refine ⟨step, solved, funext fun i => ?_⟩
    fin_cases i
    · change step.get 0 = 1
      linarith
    · change step.get 1 = 1
      linarith

end LeastSquares
