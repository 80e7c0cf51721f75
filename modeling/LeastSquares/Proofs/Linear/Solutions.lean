import LeastSquares.Proofs.Linear.Matrices

namespace LeastSquares

open Matrix

variable {n : Nat}

theorem mulVec_prepend {a : DenseMatrix ℝ (n + 1) (n + 1)} {head : ℝ} {rest : Vector ℝ n}
    {b : Fin (n + 1) → ℝ}
    (top : a.entry 0 0 * head + ∑ j, a.entry 0 (Fin.succ j) * rest.get j = b 0)
    (others : ∀ i : Fin n,
      a.entry i.succ 0 * head + ∑ j, a.entry i.succ (Fin.succ j) * rest.get j = b i.succ) :
    a.toMatrix *ᵥ (prepend head rest).get = b := by
  have row (i : Fin (n + 1)) : (a.toMatrix *ᵥ (prepend head rest).get) i =
      a.entry i 0 * head + ∑ j, a.entry i (Fin.succ j) * rest.get j := by
    rw [mulVec, dotProduct, Fin.sum_univ_succ]
    simp only [DenseMatrix.toMatrix_apply, get_prepend_zero, get_prepend_succ]
  funext i
  rw [row]
  cases i using Fin.cases with
  | zero => exact top
  | succ i => exact others i

theorem sum_sub_mul (row right x : Fin n → ℝ) (left : ℝ) :
    ∑ j, (row j - left * right j) * x j = ∑ j, row j * x j - left * ∑ j, right j * x j := by
  rw [Finset.mul_sum, ← Finset.sum_sub_distrib]
  exact Finset.sum_congr rfl fun j _ => by ring

/-! ## Factorisation -/

namespace Triangular

theorem isSymm_remaining {a : DenseMatrix ℝ (n + 1) (n + 1)} (symmetric : a.toMatrix.IsSymm)
    (below : Vector ℝ n) :
    (DenseMatrix.ofFn fun i j =>
      a.entry i.succ j.succ - below.get i * below.get j).toMatrix.IsSymm := by
  apply IsSymm.ext
  intro i j
  simp only [DenseMatrix.toMatrix_apply, DenseMatrix.entry_ofFn]
  have same : a.entry j.succ i.succ = a.entry i.succ j.succ := symmetric.apply i.succ j.succ
  rw [same, mul_comm (below.get j)]

theorem row_eq {a : DenseMatrix ℝ (n + 1) (n + 1)} {pivot : ℝ} {below : Vector ℝ n}
    (symmetric : a.toMatrix.IsSymm) (column : ∀ i : Fin n, a.entry i.succ 0 = below.get i * pivot)
    (j : Fin n) : a.entry 0 j.succ = pivot * below.get j := by
  rw [mul_comm, ← column j]
  exact symmetric.apply j.succ 0

/-- One round of the factorisation: the pivot and the column below it account for the first row and
column, and the rest is the factor of what remains. -/
theorem factor?_round {a : DenseMatrix ℝ (n + 1) (n + 1)} (positive : 0 < a.entry 0 0) :
    ∃ (pivot : ℝ) (below : Vector ℝ n), 0 < pivot ∧ a.entry 0 0 = pivot * pivot ∧
      (∀ i : Fin n, a.entry i.succ 0 = below.get i * pivot) ∧
      factor? a =
        (factor? (DenseMatrix.ofFn fun i j =>
          a.entry i.succ j.succ - below.get i * below.get j)).map (cons pivot below) := by
  have root : 0 < Real.sqrt (a.entry 0 0) := Real.sqrt_pos.mpr positive
  have corner : ((0 : Nat) : ℝ) < a.corner := by
    rw [Nat.cast_zero]
    exact positive
  refine ⟨Real.sqrt (a.entry 0 0),
    (dropFirst a).map fun row => first row / Real.sqrt (a.entry 0 0), root,
    (Real.mul_self_sqrt positive.le).symm, fun i => ?_, ?_⟩
  · rw [Vector.get_map, get_dropFirst]
    exact (div_mul_cancel₀ _ root.ne').symm
  · rw [factor?]
    exact if_pos corner

theorem factor?_cons {a : DenseMatrix ℝ (n + 1) (n + 1)} {triangle : Triangular ℝ (n + 1)}
    (found : factor? a = some triangle) :
    ∃ (pivot : ℝ) (below : Vector ℝ n) (inner : Triangular ℝ n),
      triangle = cons pivot below inner ∧ 0 < pivot ∧ a.entry 0 0 = pivot * pivot ∧
      (∀ i : Fin n, a.entry i.succ 0 = below.get i * pivot) ∧
      factor? (DenseMatrix.ofFn fun i j => a.entry i.succ j.succ - below.get i * below.get j) =
        some inner := by
  have positive : 0 < a.entry 0 0 := by
    rw [factor?] at found
    split at found
    · next corner => rwa [Nat.cast_zero] at corner
    · cases found
  obtain ⟨pivot, below, root, corner, column, round⟩ := factor?_round positive
  rw [round] at found
  obtain ⟨inner, factored, rfl⟩ := Option.map_eq_some_iff.mp found
  exact ⟨pivot, below, inner, rfl, root, corner, column, factored⟩

theorem solves {a : DenseMatrix ℝ n n} {triangle : Triangular ℝ n} (symmetric : a.toMatrix.IsSymm)
    (found : factor? a = some triangle) (b : Vector ℝ n) :
    a.toMatrix *ᵥ (triangle.solveTransposed (triangle.solve b)).get = b.get := by
  induction n with
  | zero => exact funext fun i => i.elim0
  | succ n ih =>
      obtain ⟨pivot, below, inner, rfl, positive, corner, column, factored⟩ := factor?_cons found
      have nonzero : pivot ≠ 0 := positive.ne'
      have remaining := ih (isSymm_remaining symmetric below) factored
      let y := b.get 0 / pivot
      let right := Vector.zipWith (fun right l => right - y * l) (dropFirst b) below
      let rest := inner.solveTransposed (inner.solve right)
      have solution : (cons pivot below inner).solveTransposed ((cons pivot below inner).solve b) =
          prepend ((y - dot below rest) / pivot) rest := by
        simp only [solve, solveTransposed, first_prepend, dropFirst_prepend]
        rfl
      -- The inner solution in the terms of the matrix itself, the products put back.
      have inside (i : Fin n) :
          ∑ j, a.entry i.succ (Fin.succ j) * rest.get j - below.get i * (below.get ⬝ᵥ rest.get) =
            b.get i.succ - y * below.get i := by
        have equation := congrFun (remaining right) i
        simp only [mulVec, dotProduct, DenseMatrix.toMatrix_apply, DenseMatrix.entry_ofFn,
          sum_sub_mul, right, get_zipWith, get_dropFirst] at equation
        exact equation
      rw [solution, dot_eq_dotProduct]
      apply mulVec_prepend
      · simp only [row_eq symmetric column, mul_assoc, ← Finset.mul_sum, corner]
        simp only [dotProduct, y]
        field_simp
        ring
      · intro i
        have equation := inside i
        rw [column i]
        field_simp
        linarith

end Triangular

/-! ## Elimination -/

theorem exchangeFirst_get {α : Type} (v : Vector α (n + 1)) (i j : Fin (n + 1)) :
    (exchangeFirst v i).get j = v.get (Equiv.swap 0 i j) := by
  have origin : firstIndex n = 0 := rfl
  rw [exchangeFirst, Vector.get_ofFn, Equiv.swap_apply_def, origin]
  split_ifs <;> rfl

namespace DenseMatrix

theorem solves_of_exchange {a : DenseMatrix ℝ (n + 1) (n + 1)} {x b : Vector ℝ (n + 1)}
    (top : Fin (n + 1))
    (solved : toMatrix (exchangeFirst a top) *ᵥ x.get = (exchangeFirst b top).get) :
    a.toMatrix *ᵥ x.get = b.get := by
  funext i
  have equation := congrFun solved (Equiv.swap 0 top i)
  rw [exchangeFirst_get, Equiv.swap_apply_self] at equation
  rw [← equation]
  simp only [mulVec, toMatrix_apply, entry, exchangeFirst_get, Equiv.swap_apply_self]

theorem foldr_sub_eq (terms : Vector ℝ n) (start : ℝ) :
    terms.foldr (fun term left => left - term) start = start - ∑ j, terms.get j := by
  have list (terms : List ℝ) :
      terms.foldr (fun term left => left - term) start = start - terms.sum := by
    induction terms with
    | nil => simp
    | cons term terms ih =>
        rw [List.foldr_cons, ih, List.sum_cons]
        ring
  rw [← Vector.foldr_toList, list, sum_toList]

/-! ### Rounds -/

section Rounds

variable {α : Type} [Scalar α] (a : DenseMatrix α (n + 1) (n + 1)) (b : Vector α (n + 1))

def pivoted : DenseMatrix α (n + 1) (n + 1) :=
  exchangeFirst a a.pivotRow

def factors : Vector α n :=
  (dropFirst a.pivoted).map fun row => first row * (((1 : Nat) : α) / corner a.pivoted)

def eliminated : DenseMatrix α n n :=
  ofFn fun i j => entry a.pivoted i.succ j.succ - (first a.pivoted).get j.succ * a.factors.get i

def below : Vector α n :=
  Vector.zipWith (fun right factor => right - first (exchangeFirst b a.pivotRow) * factor)
    (dropFirst (exchangeFirst b a.pivotRow)) a.factors

theorem eliminate?_succ : a.eliminate? b =
    if corner a.pivoted == ((0 : Nat) : α) then none
    else (a.eliminated.eliminate? (a.below b)).map fun rest =>
      prepend
        ((Vector.zipWith (· * ·) (dropFirst (first a.pivoted)) rest).foldr
            (fun term left => left - term) (first (exchangeFirst b a.pivotRow)) /
          corner a.pivoted)
        rest := by
  rw [eliminate?]
  refine if_congr Iff.rfl rfl ?_
  dsimp only
  split
  · next failed =>
      have failed : a.eliminated.eliminate? (a.below b) = none := failed
      rw [failed]
      rfl
  · next rest found =>
      have found : a.eliminated.eliminate? (a.below b) = some rest := found
      rw [found]
      rfl

end Rounds

section RealRounds

variable {a : DenseMatrix ℝ (n + 1) (n + 1)} {b : Vector ℝ (n + 1)}

theorem eliminate?_of_zero (zero : a.pivoted.entry 0 0 = 0) : a.eliminate? b = none := by
  rw [eliminate?_succ, Nat.cast_zero]
  exact if_pos (decide_eq_true zero)

noncomputable def completed (a : DenseMatrix ℝ (n + 1) (n + 1)) (b : Vector ℝ (n + 1))
    (rest : Vector ℝ n) : Vector ℝ (n + 1) :=
  prepend
    (((exchangeFirst b a.pivotRow).get 0 - ∑ j, a.pivoted.entry 0 (Fin.succ j) * rest.get j) /
      a.pivoted.entry 0 0)
    rest

variable (nonzero : a.pivoted.entry 0 0 ≠ 0)

include nonzero

theorem eliminate?_of_pivot :
    a.eliminate? b = (a.eliminated.eliminate? (a.below b)).map (a.completed b) := by
  have pivot : ¬ (corner a.pivoted == ((0 : Nat) : ℝ)) = true := by
    rw [Nat.cast_zero]
    exact fun zero => nonzero (of_decide_eq_true zero)
  rw [eliminate?_succ, if_neg pivot]
  refine congrArg (Option.map · _) (funext fun rest => ?_)
  rw [foldr_sub_eq]
  simp only [get_zipWith, get_dropFirst]
  rfl

theorem leading_eq (i : Fin n) :
    a.pivoted.entry i.succ 0 = a.factors.get i * a.pivoted.entry 0 0 := by
  rw [factors, Vector.get_map, get_dropFirst, Nat.cast_one, mul_assoc]
  exact (one_div_mul_cancel nonzero ▸ mul_one _).symm

theorem completed_solves {rest : Vector ℝ n}
    (solved : a.eliminated.toMatrix *ᵥ rest.get = (a.below b).get) :
    a.toMatrix *ᵥ (a.completed b rest).get = b.get := by
  have entries (i j : Fin n) : a.eliminated.entry i j =
      a.pivoted.entry i.succ j.succ - a.factors.get i * a.pivoted.entry 0 j.succ := by
    rw [mul_comm]
    exact entry_ofFn _ i j
  have sides (i : Fin n) : (a.below b).get i = (exchangeFirst b a.pivotRow).get i.succ -
      a.factors.get i * (exchangeFirst b a.pivotRow).get 0 := by
    rw [below, get_zipWith, get_dropFirst, mul_comm]
    rfl
  apply solves_of_exchange a.pivotRow
  rw [← pivoted]
  apply mulVec_prepend
  · field_simp
    ring
  · intro i
    have equation := congrFun solved i
    simp only [mulVec, dotProduct, toMatrix_apply, entries, sides, sum_sub_mul] at equation
    rw [leading_eq nonzero i]
    field_simp
    linarith

end RealRounds

theorem eliminate?_solves {a : DenseMatrix ℝ n n} {b x : Vector ℝ n}
    (found : a.eliminate? b = some x) : a.toMatrix *ᵥ x.get = b.get := by
  induction n with
  | zero => exact funext fun i => i.elim0
  | succ n ih =>
      by_cases pivot : a.pivoted.entry 0 0 = 0
      · rw [eliminate?_of_zero pivot] at found
        cases found
      · rw [eliminate?_of_pivot pivot] at found
        obtain ⟨rest, eliminated, rfl⟩ := Option.map_eq_some_iff.mp found
        exact completed_solves pivot (ih eliminated)

theorem solveSymmetric?_solves {a : DenseMatrix ℝ n n} {b x : Vector ℝ n}
    (symmetric : a.toMatrix.IsSymm) (found : a.solveSymmetric? b = some x) :
    a.toMatrix *ᵥ x.get = b.get := by
  rw [solveSymmetric?] at found
  split at found
  · next triangle factored =>
      obtain rfl := Option.some.inj found
      exact Triangular.solves symmetric factored b
  · exact eliminate?_solves found

theorem solveSymmetric?_single {a : DenseMatrix ℝ 1 1} (regular : a.entry 0 0 ≠ 0)
    (b : Vector ℝ 1) : a.solveSymmetric? b = some #v[b.get 0 / a.entry 0 0] := by
  have same : exchangeFirst a a.pivotRow = a := by
    rw [eq_single (exchangeFirst a a.pivotRow), exchangeFirst_get,
      Fin.fin_one_eq_zero (Equiv.swap _ _ _)]
    exact (eq_single a).symm
  have pivot : ¬ (corner a == ((0 : Nat) : ℝ)) = true := by
    rw [Nat.cast_zero]
    exact fun zero => regular (of_decide_eq_true zero)
  have solvable : ∃ x, a.solveSymmetric? b = some x := by
    rw [solveSymmetric?]
    split
    · exact ⟨_, rfl⟩
    · rw [eliminate?]
      simp only [same, if_neg pivot]
      rw [eliminate?]
      exact ⟨_, rfl⟩
  obtain ⟨x, found⟩ := solvable
  have symmetric : a.toMatrix.IsSymm := by
    apply IsSymm.ext
    intro i j
    rw [Fin.fin_one_eq_zero i, Fin.fin_one_eq_zero j]
  have equation : a.entry 0 0 * x.get 0 = b.get 0 := by
    rw [← solveSymmetric?_solves symmetric found, mulVec, dotProduct, Fin.sum_univ_one]
    rfl
  rw [found, eq_single x, ← equation, mul_div_cancel_left₀ _ regular]

end DenseMatrix

end LeastSquares
