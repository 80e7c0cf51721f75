import LeastSquares.Fit
import LeastSquares.Proofs.Model.Gradients
import LeastSquares.Proofs.Solver.Reordering

namespace LeastSquares

theorem exists_order_of_perm {β : Type} {left right : List β} (permuted : left.Perm right) :
    ∃ order : Fin left.length ≃ Fin right.length, ∀ k, left.get k = right.get (order k) := by
  induction permuted with
  | nil => exact ⟨Equiv.refl _, fun k => k.elim0⟩
  | cons first _ ih =>
      obtain ⟨order, same⟩ := ih
      refine ⟨(finSuccEquiv _).trans (order.optionCongr.trans (finSuccEquiv _).symm), fun k => ?_⟩
      cases k using Fin.cases with
      | zero => rfl
      | succ k => exact same k
  | swap first second rest =>
      refine ⟨Equiv.swap 0 1, fun k => ?_⟩
      cases k using Fin.cases with
      | zero => rfl
      | succ k =>
          cases k using Fin.cases with
          | zero => rfl
          | succ k =>
              rw [Equiv.swap_apply_of_ne_of_ne (Fin.succ_ne_zero _)]
              · rfl
              · exact fun same => Fin.succ_ne_zero k (Fin.succ_injective _ same)
  | trans _ _ first second =>
      obtain ⟨inner, same⟩ := first
      obtain ⟨outer, alike⟩ := second
      exact ⟨inner.trans outer, fun k => (same k).trans (alike (inner k))⟩

section Determination

variable {m m' : Nat} (order : Fin m' ≃ Fin m)

noncomputable def average (v : Vector ℝ m) : ℝ :=
  (∑ k, v.get k) / m

noncomputable def spread (v : Vector ℝ m) : ℝ :=
  ∑ k, (v.get k - average v) * (v.get k - average v)

theorem rSquared_eq (observed residuals : Vector ℝ m) :
    rSquared observed residuals =
      if spread observed = 0 then none
      else some (1 - dot residuals residuals / spread observed) := by
  have mean : columnSum observed / (m : ℝ) = average observed := by
    rw [columnSum_eq_sum, average]
  have deviations : Scalar.sum (observed.map fun value =>
      (value - average observed) * (value - average observed)).toList = spread observed := by
    rw [Scalar.sum_toList]
    simp only [Vector.get_map, spread]
  unfold rSquared
  simp only [mean, deviations]
  by_cases flat : spread observed = 0
  · rw [if_pos flat, if_pos]
    exact decide_eq_true (flat.trans Nat.cast_zero.symm)
  · rw [if_neg flat, if_neg]
    · rw [Nat.cast_one]
    · exact fun equal => flat ((of_decide_eq_true equal).trans Nat.cast_zero)

theorem average_reordered (v : Vector ℝ m) : average (reordered order v) = average v := by
  have sizes : m' = m := by simpa using Fintype.card_congr order
  unfold average
  simp only [get_reordered, Equiv.sum_comp order, sizes]

theorem spread_reordered (v : Vector ℝ m) : spread (reordered order v) = spread v := by
  unfold spread
  simp only [get_reordered, average_reordered]
  exact Equiv.sum_comp order fun k => (v.get k - average v) * (v.get k - average v)

theorem rSquared_reordered (observed residuals : Vector ℝ m) :
    rSquared (reordered order observed) (reordered order residuals) =
      rSquared observed residuals := by
  rw [rSquared_eq, rSquared_eq, spread_reordered, dot_reordered]

end Determination

section Datasets

def Dataset.row (data : Dataset ℝ) (k : Fin data.size) : ℝ × ℝ :=
  data.rows.get k

theorem Dataset.get_x (data : Dataset ℝ) (k : Fin data.size) : data.x.get k = (data.row k).1 :=
  List.getElem_map Prod.fst

theorem Dataset.get_y (data : Dataset ℝ) (k : Fin data.size) : data.y.get k = (data.row k).2 :=
  List.getElem_map Prod.snd

variable {data data' : Dataset ℝ} {order : Fin data'.size ≃ Fin data.size}
  (same : ∀ k, data'.row k = data.row (order k))

include same

theorem x_reordered : data'.x = reordered order data.x := by
  apply ext_get
  intro k
  rw [get_reordered, Dataset.get_x, Dataset.get_x, same]

theorem y_reordered : data'.y = reordered order data.y := by
  apply ext_get
  intro k
  rw [get_reordered, Dataset.get_y, Dataset.get_y, same]

variable (model : Model ℝ)

theorem residuals_reordered (params : Vector ℝ model.arity) :
    model.residuals data' params = reordered order (model.residuals data params) := by
  rw [Model.residuals, Model.residuals, reordered_zipWith, Formula.column, Formula.column,
    reordered_map, x_reordered same, y_reordered same]

theorem jacobian_reordered (params : Vector ℝ model.arity) :
    DenseMatrix.neg (DenseMatrix.transpose
        (model.derivatives.map fun d => d.column data'.x params.toList)) =
      reordered order (DenseMatrix.neg (DenseMatrix.transpose
        (model.derivatives.map fun d => d.column data.x params.toList))) := by
  apply ext_get
  intro k
  apply ext_get
  intro i
  rw [get_reordered]
  change DenseMatrix.entry _ k i = DenseMatrix.entry _ (order k) i
  rw [DenseMatrix.entry_neg, DenseMatrix.entry_neg, Model.entry_partials, Model.entry_partials,
    x_reordered same, get_reordered]

theorem minimize_reordered (settings : Settings ℝ) (initial : List ℝ) :
    minimize (.ofModel model data') settings initial =
      (minimize (.ofModel model data) settings initial).map (Outcome.reorder order) := by
  have residuals : (Problem.ofModel model data').residuals =
      ((Problem.ofModel model data).reorder order).residuals := by
    funext params
    refine (model.residuals_ofModel data' params).trans (Eq.symm ?_)
    refine (congrArg (Except.map (reordered order)) (model.residuals_ofModel data params)).trans ?_
    exact congrArg Except.ok (residuals_reordered same model params).symm
  have jacobian : (Problem.ofModel model data').jacobian =
      ((Problem.ofModel model data).reorder order).jacobian := by
    funext params
    refine (model.jacobian_ofModel data' params).trans (Eq.symm ?_)
    refine (congrArg (Except.map (reordered order)) (model.jacobian_ofModel data params)).trans ?_
    exact congrArg Except.ok (jacobian_reordered same model params).symm
  exact (minimize_congr residuals jacobian settings initial).trans
    (minimize_reorder (.ofModel model data) settings order initial)

theorem reportOf_reorder (outcome : Outcome ℝ data.size model.arity) :
    model.reportOf data' (outcome.reorder order) = model.reportOf data outcome := by
  have determination : rSquared data'.y (reordered order outcome.residuals) =
      rSquared data.y outcome.residuals := by
    rw [y_reordered same, rSquared_reordered]
  exact congrArg (fun rSquared => { model.reportOf data outcome with rSquared }) determination

theorem fit_reordered (settings : Settings ℝ) (initial : List ℝ) :
    model.fit settings data' initial = model.fit settings data initial := by
  unfold Model.fit
  split
  · rw [minimize_reordered same]
    cases minimize (.ofModel model data) settings initial with
    | error cause => rfl
    | ok outcome => exact congrArg Except.ok (reportOf_reorder same model outcome)
  · rfl

end Datasets

/-- The order of the observations does not matter: a fit to the same rows in another order gives the
same report or the same error, and the run of the solver behind it the same outcome, with the
residuals in the order of the rows. -/
theorem Model.fit_of_perm (model : Model ℝ) (settings : Settings ℝ) (initial : List ℝ)
    {data data' : Dataset ℝ} (permuted : data'.rows.Perm data.rows) :
    model.fit settings data' initial = model.fit settings data initial ∧
    (∃ order : Fin data'.size ≃ Fin data.size, ∀ k, data'.row k = data.row (order k)) ∧
    ∀ order : Fin data'.size ≃ Fin data.size, (∀ k, data'.row k = data.row (order k)) →
      minimize (.ofModel model data') settings initial =
        (minimize (.ofModel model data) settings initial).map (Outcome.reorder order) := by
  obtain ⟨order, same⟩ := exists_order_of_perm permuted
  exact ⟨fit_reordered same model settings initial, ⟨order, same⟩,
    fun _ alike => minimize_reordered alike model settings initial⟩

def swappedSamples : Dataset ℝ where
  rows := Model.twoSamples.rows.reverse
  nonempty := List.reverse_ne_nil_iff.mpr Model.twoSamples.nonempty
  finite _ _ := ⟨rfl, rfl⟩

theorem Model.fit_of_perm_swapped :
    swappedSamples.rows.Perm twoSamples.rows ∧
    scaledCube.fit .standard swappedSamples [-4, 9] =
      scaledCube.fit .standard twoSamples [-4, 9] ∧
    minimize (.ofModel scaledCube swappedSamples) .standard [-4, 9] =
      (minimize (.ofModel scaledCube twoSamples) .standard [-4, 9]).map
        (Outcome.reorder (Equiv.swap (0 : Fin 2) 1)) := by
  have swapped : swappedSamples.rows.Perm twoSamples.rows := List.reverse_perm _
  obtain ⟨fits, -, outcomes⟩ := fit_of_perm scaledCube .standard [-4, 9] swapped
  have alike (k : Fin 2) : swappedSamples.row k = twoSamples.row (Equiv.swap (0 : Fin 2) 1 k) := by
    fin_cases k
    · rfl
    · rfl
  exact ⟨swapped, fits, outcomes (Equiv.swap (0 : Fin 2) (1 : Fin 2)) alike⟩

end LeastSquares
