import LeastSquares.Proofs.Formula.Dependence
import LeastSquares.Proofs.Linear.Matrices
import LeastSquares.Proofs.Model.Columns

namespace LeastSquares

variable {α : Type}

def Formula.Numbered (formula : Formula α) (n : Nat) : Prop :=
  2 ≤ n ∧ n ≤ 4 ∧ ∀ i, formula.dependsOn i = true ↔ i < n

namespace Program

def LoadsBelow (program : Program α) (n : Nat) : Prop :=
  ∀ i, .loadParam i ∈ program.instructions → i < n

/-- A program finds every parameter it loads, and leaves the same column whatever values stand
where a parameter would be missing. -/
structure Yields [Scalar α] {count : Nat} (program : Program α) (samples : Vector α count)
    (params : List α) (column : Vector α count) : Prop where
  below : program.LoadsBelow params.length
  run_eq (extra : List α) : program.run samples (params ++ extra) = column

theorem loadParam_mem_emit (formula : Formula α) (i : Nat) :
    .loadParam i ∈ emit formula ↔ formula.dependsOn i = true := by
  induction formula with
  | number _ | sample => simp [emit, Formula.dependsOn]
  | param index => simp [emit, Formula.dependsOn, eq_comm]
  | neg operand ih => simp [emit, Formula.dependsOn, ih]
  | binary op left right ihl ihr => simp [emit, Formula.dependsOn, ihl, ihr]
  | call f argument ih => simp [emit, Formula.dependsOn, ih]

variable [Scalar α] {count : Nat}

theorem execute_append_params (instruction : Instruction α) {params : List α}
    (within : ∀ i, instruction = .loadParam i → i < params.length) (samples : Vector α count)
    (extra : List α) (stack : List (Vector α count)) :
    instruction.execute samples (params ++ extra) stack =
      instruction.execute samples params stack := by
  cases instruction with
  | constant value | loadSample => rfl
  | loadParam index =>
      simp only [Instruction.execute, List.getElem?_append_left (within index rfl)]
  | neg | call f => cases stack <;> rfl
  | binary op => rcases stack with _ | ⟨right, _ | ⟨left, stack⟩⟩ <;> rfl

theorem LoadsBelow.yields {program : Program α} {params : List α}
    (below : program.LoadsBelow params.length) (samples : Vector α count) :
    program.Yields samples params (program.run samples params) := by
  refine ⟨below, fun extra => ?_⟩
  have same (instructions : List (Instruction α)) (stack : List (Vector α count))
      (bound : ∀ i, .loadParam i ∈ instructions → i < params.length) :
      execute samples (params ++ extra) instructions stack =
        execute samples params instructions stack := by
    induction instructions generalizing stack with
    | nil => rfl
    | cons instruction rest ih =>
        have step := execute_append_params instruction
          (fun i loads => bound i (loads ▸ List.mem_cons_self)) samples extra stack
        rw [execute, List.foldl_cons, step]
        exact ih _ fun i member => bound i (List.mem_cons_of_mem _ member)
  rw [run, run, same _ _ below]

end Program

namespace Model

variable [Scalar α]

theorem ofFormula_of_numbered {formula : Formula α} {n : Nat} (numbered : formula.Numbered n)
    (source : String) :
    ∃ model, ofFormula source formula = .ok model ∧ model.formula = formula ∧ model.arity = n := by
  obtain ⟨atLeast, atMost, first⟩ := numbered
  have listed : formula.parameters = List.range n := (formula.parameters_eq_range_iff n).mpr first
  have length : formula.parameters.length = n := by rw [listed, List.length_range]
  have supported : minArity ≤ formula.parameters.length ∧ formula.parameters.length ≤ maxArity ∧
      formula.parameters = List.range formula.parameters.length := by
    rw [length]
    exact ⟨atLeast, atMost, listed⟩
  rw [ofFormula, dif_pos supported]
  exact ⟨_, rfl, rfl, length⟩

theorem ofFormula_of_not_numbered {formula : Formula α}
    (none : ¬ ∃ n, formula.Numbered n) (source : String) :
    ofFormula source formula = .error (.unsupportedArity formula.parameters) := by
  rw [ofFormula, dif_neg]
  rintro ⟨atLeast, atMost, listed⟩
  exact none ⟨_, atLeast, atMost, (formula.parameters_eq_range_iff _).mp listed⟩

theorem dependsOn_formula (model : Model α) (i : Nat) :
    model.formula.dependsOn i = true ↔ i < model.arity :=
  (model.formula.parameters_eq_range_iff _).mp model.parameters_eq i

theorem loadsBelow_program (model : Model α) : model.program.LoadsBelow model.arity := by
  intro i loaded
  rw [model.program_eq] at loaded
  exact (model.dependsOn_formula i).mp ((Program.loadParam_mem_emit _ i).mp loaded)

theorem loadsBelow_partials (model : Model α) (k : Fin model.arity) :
    (model.partials.get k).LoadsBelow model.arity := by
  intro i loaded
  have lowered : model.partials.get k = .lower (model.formula.derivative k) := by
    simp [get_eq_getElem, model.partials_eq, model.derivatives_eq]
  rw [lowered] at loaded
  have mentioned := (Program.loadParam_mem_emit _ i).mp loaded
  exact (model.dependsOn_formula i).mp (Formula.dependsOn_of_derivative mentioned)

section Evaluators

variable {count : Nat} {model : Model α} {samples : Vector α count} {params : List α}

theorem yields_of_eval {values : Vector α count} (ended : model.eval samples params = .ok values) :
    model.program.Yields samples params values := by
  unfold eval at ended
  split at ended
  · rename_i fits
    obtain rfl := Except.ok.inj ended
    exact Program.LoadsBelow.yields (by rw [fits]; exact model.loadsBelow_program) samples
  · cases ended

theorem yields_of_partialAt {index : Nat} {values : Vector α count}
    (ended : model.partialAt samples params index = .ok values) :
    ∃ k : Fin model.arity, k = index ∧ (model.partials.get k).Yields samples params values := by
  unfold partialAt at ended
  split at ended
  · rename_i fits
    split at ended
    · rename_i program found
      obtain ⟨bound, rfl⟩ := Vector.getElem?_eq_some_iff.mp found
      obtain rfl := Except.ok.inj ended
      exact ⟨⟨index, bound⟩, rfl, Program.LoadsBelow.yields
        (by rw [fits]; exact model.loadsBelow_partials ⟨index, bound⟩) samples⟩
    · cases ended
  · cases ended

theorem yields_of_jacobian {jacobian : DenseMatrix α count model.arity}
    (ended : model.jacobian samples params = .ok jacobian) (k : Fin model.arity) :
    (model.partials.get k).Yields samples params (jacobian.transpose.get k) := by
  unfold Model.jacobian at ended
  split at ended
  · rename_i fits
    obtain rfl := Except.ok.inj ended
    have column : (DenseMatrix.transpose (DenseMatrix.transpose
        (model.partials.map fun program => program.run samples params))).get k =
          (model.partials.get k).run samples params := by
      rw [DenseMatrix.transpose_transpose, Vector.get_map]
    rw [column]
    exact Program.LoadsBelow.yields (by rw [fits]; exact model.loadsBelow_partials k) samples
  · cases ended

end Evaluators

theorem compile_eq_badSyntax_iff (source : String) (cause : SyntaxError) :
    compile (α := α) source = .error (.badSyntax cause) ↔
      Formula.parse (α := α) source = .error cause := by
  unfold compile
  cases Formula.parse (α := α) source with
  | error reason => simp
  | ok formula =>
      simp only [ofFormula]
      split <;> simp

theorem compile_of_parse {source : String} {formula : Formula α}
    (read : Formula.parse source = .ok formula) : compile source = ofFormula source formula := by
  rw [compile, read]

theorem ofFormula_eq_unsupportedArity_iff (source : String) (formula : Formula α) :
    ofFormula source formula = .error (.unsupportedArity formula.parameters) ↔
      ¬ ∃ n, formula.Numbered n := by
  refine ⟨?_, fun none => ofFormula_of_not_numbered none source⟩
  rintro refused ⟨n, numbered⟩
  obtain ⟨model, accepted, -⟩ := ofFormula_of_numbered numbered source
  rw [accepted] at refused
  cases refused

theorem numbered_formula (model : Model α) : model.formula.Numbered model.arity :=
  ⟨model.arity_ge, model.arity_le, model.dependsOn_formula⟩

/-- Compiling tells every text apart: one that is not parsed, one whose parameters are not the first
two, three or four, which are then listed in increasing order, and one that becomes a model. The
programs of a model load its parameters only, so what the evaluators return was computed without a
missing parameter. -/
theorem compile_classifies (α : Type) [Scalar α] (source : String) :
    (∀ cause, compile (α := α) source = .error (.badSyntax cause) ↔
      Formula.parse (α := α) source = .error cause) ∧
    (∀ formula : Formula α, Formula.parse source = .ok formula →
      (formula.parameters.Pairwise (· < ·) ∧
        ∀ i, i ∈ formula.parameters ↔ formula.dependsOn i = true) ∧
      (compile (α := α) source = .error (.unsupportedArity formula.parameters) ↔
        ¬ ∃ n, formula.Numbered n) ∧
      ∀ n, (∃ model : Model α,
          compile source = .ok model ∧ model.formula = formula ∧ model.arity = n) ↔
        formula.Numbered n) ∧
    ∀ model : Model α, compile source = .ok model →
      (model.program.LoadsBelow model.arity ∧
        ∀ k, (model.partials.get k).LoadsBelow model.arity) ∧
      ∀ {count : Nat} (samples : Vector α count) (params : List α),
        (∀ values, model.eval samples params = .ok values →
          model.program.Yields samples params values) ∧
        (∀ index values, model.partialAt samples params index = .ok values →
          ∃ k : Fin model.arity, k = index ∧
            (model.partials.get k).Yields samples params values) ∧
        ∀ jacobian, model.jacobian samples params = .ok jacobian →
          ∀ k, (model.partials.get k).Yields samples params (jacobian.transpose.get k) := by
  refine ⟨compile_eq_badSyntax_iff source, fun formula read => ?_, fun model compiled => ?_⟩
  · simp only [compile_of_parse read]
    refine ⟨⟨formula.pairwise_parameters, formula.mem_parameters⟩,
      ofFormula_eq_unsupportedArity_iff source formula, fun n => ⟨?_, fun numbered =>
        ofFormula_of_numbered numbered source⟩⟩
    rintro ⟨model, -, rfl, rfl⟩
    exact model.numbered_formula
  · exact ⟨⟨model.loadsBelow_program, model.loadsBelow_partials⟩, fun samples params =>
      ⟨fun values => yields_of_eval, fun index values => yields_of_partialAt,
        fun jacobian => yields_of_jacobian⟩⟩

end Model

end LeastSquares
