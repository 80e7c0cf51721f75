import LeastSquares.Proofs.Linear.Matrices
import LeastSquares.Proofs.Solver.Decisions

namespace LeastSquares

open Matrix

variable {β γ δ : Type} {m m' n : Nat} (order : Fin m' ≃ Fin m)

/-! ## Vectors and matrices -/

def reordered (v : Vector β m) : Vector β m' :=
  Vector.ofFn fun k => v.get (order k)

theorem get_reordered (v : Vector β m) (k : Fin m') :
    (reordered order v).get k = v.get (order k) :=
  Vector.get_ofFn _ k

theorem reordered_map (f : β → γ) (v : Vector β m) :
    reordered order (v.map f) = (reordered order v).map f := by
  apply ext_get
  intro k
  rw [get_reordered, Vector.get_map, Vector.get_map, get_reordered]

theorem reordered_zipWith (f : β → γ → δ) (v : Vector β m) (w : Vector γ m) :
    reordered order (Vector.zipWith f v w) =
      Vector.zipWith f (reordered order v) (reordered order w) := by
  apply ext_get
  intro k
  rw [get_reordered, get_zipWith, get_zipWith, get_reordered, get_reordered]

theorem dotProduct_reordered (v w : Vector ℝ m) :
    (reordered order v).get ⬝ᵥ (reordered order w).get = v.get ⬝ᵥ w.get := by
  simp only [dotProduct, get_reordered]
  exact Equiv.sum_comp order fun k => v.get k * w.get k

theorem dot_reordered (v w : Vector ℝ m) :
    dot (reordered order v) (reordered order w) = dot v w := by
  rw [dot_eq_dotProduct, dot_eq_dotProduct, dotProduct_reordered]

namespace DenseMatrix

theorem get_transpose_reordered (a : DenseMatrix ℝ m n) (j : Fin n) :
    (transpose (reordered order a)).get j = reordered order (a.transpose.get j) := by
  apply ext_get
  intro k
  rw [get_transpose, get_reordered, get_transpose]
  exact congrArg (Vector.get · j) (get_reordered order a k)

theorem gram_reordered (a : DenseMatrix ℝ m n) : gram (reordered order a) = a.gram := by
  unfold gram
  simp only [get_transpose_reordered, (sumsTo_lineDot _ _).eq_dotProduct, dotProduct_reordered]

theorem transposeApply_reordered (a : DenseMatrix ℝ m n) (v : Vector ℝ m) :
    transposeApply (reordered order a) (reordered order v) = a.transposeApply v := by
  apply ext_get
  intro j
  rw [(sumsTo_transposeApply _ _ j).eq_dotProduct, (sumsTo_transposeApply a v j).eq_dotProduct,
    get_transpose_reordered, dotProduct_reordered]

end DenseMatrix

/-! ## Problems and their linearizations -/

def Outcome.reorder {α : Type} (outcome : Outcome α m n) : Outcome α m' n :=
  { outcome with residuals := reordered order outcome.residuals }

abbrev Problem.reorder {α : Type} (problem : Problem α) (order : Fin m' ≃ Fin problem.residualCount) :
    Problem α where
  parameterCount := problem.parameterCount
  residualCount := m'
  residuals params := (problem.residuals params).map (reordered order)
  jacobian params := (problem.jacobian params).map (reordered order)

theorem halfSquare_reordered (v : Vector ℝ m) :
    Problem.halfSquare (reordered order v) = Problem.halfSquare v := by
  rw [Problem.halfSquare, dot_reordered, Problem.halfSquare]

namespace Linearization

def reorder (linearization : Linearization ℝ m n) : Linearization ℝ m' n where
  residuals := reordered order linearization.residuals
  jacobian := reordered order linearization.jacobian
  hessian := linearization.hessian
  hessian_eq := by rw [DenseMatrix.gram_reordered, linearization.hessian_eq]
  gradient := linearization.gradient
  gradient_eq := by rw [DenseMatrix.transposeApply_reordered, linearization.gradient_eq]

theorem eq_of_parts {left right : Linearization ℝ m n} (residuals : left.residuals = right.residuals)
    (jacobian : left.jacobian = right.jacobian) : left = right := by
  obtain ⟨r, j, _, rfl, _, rfl⟩ := left
  obtain ⟨r', j', _, rfl, _, rfl⟩ := right
  cases residuals
  cases jacobian
  rfl

variable {problem : Problem ℝ} (order : Fin m' ≃ Fin problem.residualCount)
  (params : Vector ℝ problem.parameterCount)

theorem withResiduals_reorder (residuals : Vector ℝ problem.residualCount) :
    withResiduals (problem.reorder order) params (reordered order residuals) =
      (withResiduals problem params residuals).map (reorder order) := by
  have evaluated : (problem.reorder order).jacobian params =
      (problem.jacobian params).map (reordered order) := rfl
  rw [withResiduals, evaluated, withResiduals]
  cases problem.jacobian params with
  | error cause => rfl
  | ok jacobian => exact congrArg Except.ok (eq_of_parts rfl rfl)

theorem of_reorder :
    of (problem.reorder order) params = (of problem params).map (reorder order) := by
  have evaluated : (problem.reorder order).residuals params =
      (problem.residuals params).map (reordered order) := rfl
  rw [of, evaluated, of]
  cases problem.residuals params with
  | error cause => rfl
  | ok residuals => exact withResiduals_reorder order params residuals

end Linearization

/-! ## Runs -/

section Runs

variable {problem : Problem ℝ} {settings : Settings ℝ} (order : Fin m' ≃ Fin problem.residualCount)

def Head.reorder (head : Head problem) : Head (problem.reorder order) where
  search := head.search
  linearization := head.linearization.reorder order

def Trial.reorder : Trial problem → Trial (problem.reorder order)
  | .finished outcome => .finished (outcome.reorder order)
  | .accepted next => .accepted (next.reorder order)
  | .rejected next => .rejected (next.reorder order)

namespace Head

theorem initial_reorder (scale : ℝ) (start : Vector ℝ problem.parameterCount) :
    Head.initial (problem.reorder order) scale start =
      (Head.initial problem scale start).map (Head.reorder order) := by
  rw [Head.initial, Linearization.of_reorder, Head.initial]
  cases Linearization.of problem start with
  | error cause => rfl
  | ok linearization => rfl

theorem stop?_reorder (head : Head problem) :
    (head.reorder order).stop? settings = head.stop? settings :=
  rfl

theorem proposed_reorder (head : Head problem) (step : Vector ℝ problem.parameterCount) :
    (head.reorder order).proposed step = head.proposed step :=
  rfl

theorem gain_reorder (head : Head problem) (step : Vector ℝ problem.parameterCount)
    (residuals : Vector ℝ problem.residualCount) :
    (head.reorder order).gain step (reordered order residuals) = head.gain step residuals := by
  have squares : (head.linearization.reorder order).sumOfSquares =
      head.linearization.sumOfSquares := dot_reordered order _ _
  unfold gain
  rw [dot_reordered]
  exact congrArg (fun total => gainRatio ((total - _) / _) _) squares

theorem outcome_reorder (head : Head problem) (reason : Termination) :
    (head.reorder order).outcome reason = (head.outcome reason).reorder order :=
  congrArg (fun cost => { (head.outcome reason).reorder order with cost })
    (halfSquare_reordered order head.linearization.residuals)

theorem attempt_reorder (head : Head problem) :
    (head.reorder order).attempt settings = (head.attempt settings).map (Trial.reorder order) := by
  cases solved : dampedStep head.linearization.hessian head.linearization.gradient
      head.search.damping (head.search.iterations + 1) with
  | error cause =>
      rw [attempt_of_unsolved solved]
      exact attempt_of_unsolved solved
  | ok step =>
      have solves : head.Solves step := solved
      have solves' : (head.reorder order).Solves step := solved
      cases evaluated : problem.residuals (head.proposed step).params with
      | error cause =>
          have evaluated' : (problem.reorder order).residuals
              ((head.reorder order).proposed step).params = .error cause :=
            congrArg (Except.map (reordered order)) evaluated
          rw [solves.attempt_of_unevaluated evaluated, solves'.attempt_of_unevaluated evaluated']
          rfl
      | ok residuals =>
          have evaluated' : (problem.reorder order).residuals
              ((head.reorder order).proposed step).params = .ok (reordered order residuals) :=
            congrArg (Except.map (reordered order)) evaluated
          rw [solves.attempt_eq evaluated, solves'.attempt_eq evaluated', proposed_reorder,
            gain_reorder, halfSquare_reordered]
          by_cases short : (head.proposed step).stepLength ≤ settings.stepTolerance
          · rw [if_pos short, if_pos short]
            rfl
          · rw [if_neg short, if_neg short]
            by_cases gained : ((0 : Nat) : ℝ) < head.gain step residuals
            · rw [if_pos gained, if_pos gained]
              rw [Linearization.withResiduals_reorder]
              cases Linearization.withResiduals problem (head.proposed step).params residuals with
              | error cause => rfl
              | ok linearization => rfl
            · rw [if_neg gained, if_neg gained]
              rfl

theorem run_reorder (head : Head problem) (budget : Nat) :
    (head.reorder order).run settings budget =
      (head.run settings budget).map (Outcome.reorder order) := by
  induction budget generalizing head with
  | zero =>
      rw [run, run, stop?_reorder]
      cases head.stop? settings with
      | some reason => exact congrArg Except.ok (head.outcome_reorder order reason)
      | none => exact congrArg Except.ok (head.outcome_reorder order .maxIterations)
  | succ budget ih =>
      rw [run, run, stop?_reorder]
      cases head.stop? settings with
      | some reason => exact congrArg Except.ok (head.outcome_reorder order reason)
      | none =>
          dsimp only
          rw [attempt_reorder]
          cases head.attempt settings with
          | error cause => rfl
          | ok trial =>
              cases trial with
              | finished outcome => rfl
              | accepted next => exact ih next
              | rejected next => exact ih next

end Head

theorem minimize_reorder (problem : Problem ℝ) (settings : Settings ℝ)
    (order : Fin m' ≃ Fin problem.residualCount) (initial : List ℝ) :
    minimize (problem.reorder order) settings initial =
      (minimize problem settings initial).map (Outcome.reorder order) := by
  by_cases fits : initial.length = problem.parameterCount
  · rw [minimize, dif_pos fits, minimize, dif_pos fits, Head.initial_reorder]
    cases Head.initial problem settings.initialDampingScale ⟨initial.toArray, by simpa using fits⟩ with
    | error cause => rfl
    | ok head => exact head.run_reorder order settings.maxIterations
  · rw [minimize, dif_neg fits, minimize, dif_neg fits]
    rfl

-- Shapes are given apart, as an equation of problems would not keep the types of the outcomes.
theorem minimize_congr {residuals residuals' : Vector ℝ n → Except (Error ℝ) (Vector ℝ m)}
    {jacobian jacobian' : Vector ℝ n → Except (Error ℝ) (DenseMatrix ℝ m n)}
    (sameResiduals : residuals = residuals') (sameJacobian : jacobian = jacobian')
    (settings : Settings ℝ) (initial : List ℝ) :
    (minimize ⟨n, m, residuals, jacobian⟩ settings initial :
        Except (Error ℝ) (Outcome ℝ m n)) =
      minimize ⟨n, m, residuals', jacobian'⟩ settings initial := by
  subst sameResiduals sameJacobian
  rfl

end Runs

end LeastSquares
