import LeastSquares.Model

namespace LeastSquares

variable {α : Type} [Scalar α] {count : Nat}

namespace Formula

def column (formula : Formula α) (samples : Vector α count) (params : List α) : Vector α count :=
  samples.map fun x => formula.evaluate x params

variable (samples : Vector α count) (params : List α)

@[simp]
theorem getElem_column (formula : Formula α) (k : Nat) (bound : k < count) :
    (formula.column samples params)[k] = formula.evaluate samples[k] params := by
  simp [column]

theorem get_column (formula : Formula α) (k : Fin count) :
    (formula.column samples params).get k = formula.evaluate (samples.get k) params := by
  simp only [get_eq_getElem, Fin.getElem_fin, getElem_column]

theorem column_number (value : α) :
    (number value).column samples params = Vector.replicate count value := by
  ext k bound
  simp [evaluate]

theorem column_sample : (sample : Formula α).column samples params = samples := by
  ext k bound
  simp [evaluate]

theorem column_param (index : Nat) :
    (param index : Formula α).column samples params =
      Vector.replicate count (params[index]?.getD Scalar.nan) := by
  ext k bound
  simp [evaluate]

theorem column_neg (operand : Formula α) :
    (neg operand).column samples params = (operand.column samples params).map (- ·) := by
  ext k bound
  simp [evaluate]

theorem column_binary (op : Operator) (left right : Formula α) :
    (binary op left right).column samples params =
      Vector.zipWith op.apply (left.column samples params) (right.column samples params) := by
  ext k bound
  simp [evaluate]

theorem column_call (f : Elementary) (argument : Formula α) :
    (call f argument).column samples params = (argument.column samples params).map f.apply := by
  ext k bound
  simp [evaluate]

end Formula

namespace Program

theorem execute_emit (formula : Formula α) (samples : Vector α count) (params : List α)
    (stack : List (Vector α count)) :
    execute samples params (emit formula) stack = formula.column samples params :: stack := by
  induction formula generalizing stack with
  | number value => rw [Formula.column_number]; rfl
  | sample => rw [Formula.column_sample]; rfl
  | param index => rw [Formula.column_param]; rfl
  | neg operand ih =>
      rw [emit, execute_append, ih, Formula.column_neg]
      rfl
  | binary op left right ihl ihr =>
      rw [emit, execute_append, execute_append, ihl, ihr, Formula.column_binary]
      rfl
  | call f argument ih =>
      rw [emit, execute_append, ih, Formula.column_call]
      rfl

theorem run_lower (formula : Formula α) (samples : Vector α count) (params : List α) :
    (lower formula).run samples params = formula.column samples params := by
  rw [run, lower, execute_emit]
  rfl

end Program

namespace Model

variable (model : Model α) (samples : Vector α count) {params : List α}

theorem eval_eq (fits : params.length = model.arity) :
    model.eval samples params = .ok (model.formula.column samples params) := by
  rw [eval, if_pos fits, model.program_eq, Program.run_lower]

theorem partialAt_eq (fits : params.length = model.arity) {index : Nat}
    (bound : index < model.arity) :
    model.partialAt samples params index = .ok (model.derivatives[index].column samples params) := by
  simp [partialAt, fits, model.partials_eq, bound, Program.run_lower]

theorem jacobian_eq (fits : params.length = model.arity) :
    model.jacobian samples params =
      .ok (DenseMatrix.transpose (model.derivatives.map fun d => d.column samples params)) := by
  simp [jacobian, fits, model.partials_eq, Program.run_lower, Function.comp_def]

/-- The evaluators of a model give the values of its formula and derivatives at every sample, and
refuse exactly the parameter lists of another length and the indices beyond the arity. -/
theorem evaluators_agree (model : Model α) (samples : Vector α count) (params : List α) :
    (params.length = model.arity →
      (∃ values, model.eval samples params = .ok values ∧
        ∀ k : Fin count, values.get k = model.formula.evaluate (samples.get k) params) ∧
      (∀ i : Fin model.arity, ∃ values, model.partialAt samples params i = .ok values ∧
        ∀ k : Fin count, values.get k = (model.derivatives.get i).evaluate (samples.get k) params) ∧
      (∃ jacobian, model.jacobian samples params = .ok jacobian ∧
        ∀ i : Fin model.arity, ∃ values, model.partialAt samples params i = .ok values ∧
          ∀ k : Fin count, jacobian.entry k i = values.get k) ∧
      ∀ index, model.arity ≤ index →
        model.partialAt samples params index = .error (.partialIndex index model.arity)) ∧
    (params.length ≠ model.arity →
      model.eval samples params = .error (.parameterCount model.arity params.length) ∧
      (∀ index, model.partialAt samples params index =
        .error (.parameterCount model.arity params.length)) ∧
      model.jacobian samples params = .error (.parameterCount model.arity params.length)) ∧
    ∀ (formula : Formula α) (given : List α),
      (Program.lower formula).run samples given = samples.map fun x => formula.evaluate x given := by
  refine ⟨fun fits => ⟨?_, ?_, ?_, ?_⟩, fun differs => ⟨?_, ?_, ?_⟩, ?_⟩
  · exact ⟨_, model.eval_eq samples fits, fun k => Formula.get_column samples params _ k⟩
  · exact fun i => ⟨_, model.partialAt_eq samples fits i.isLt, fun k =>
      Formula.get_column samples params _ k⟩
  · refine ⟨_, model.jacobian_eq samples fits, fun i => ⟨_, model.partialAt_eq samples fits i.isLt, ?_⟩⟩
    intro k
    rw [DenseMatrix.entry_transpose]
    simp [DenseMatrix.entry, get_eq_getElem]
  · intro index beyond
    simp [partialAt, fits, beyond]
  · rw [eval, if_neg differs]
  · intro index
    rw [partialAt, if_neg differs]
  · rw [jacobian, if_neg differs]
  · exact fun formula given => Program.run_lower formula samples given

end Model

end LeastSquares
