import Mathlib
import LeastSquares.Proofs.Formula.Dependence
import LeastSquares.Proofs.Formula.Folding

namespace LeastSquares

def Elementary.Regular : Elementary → ℝ → Prop
  | .log, value | .log10, value | .sqrt, value => 0 < value
  | .tan, value => Real.cos value ≠ 0
  | .exp, _ | .sin, _ | .cos, _ => True

namespace Formula

/-- Where the rules give the derivative with respect to one parameter: divisors are not zero,
functions are inside their domains, and a base is positive unless its exponent is a whole number
that does not change with the parameter. -/
def Regular (index : Nat) (x : ℝ) (params : List ℝ) : Formula ℝ → Prop
  | number _ | sample | param _ => True
  | neg operand => operand.Regular index x params
  | binary op left right =>
    left.Regular index x params ∧ right.Regular index x params ∧
      match op with
      | .add | .sub | .mul => True
      | .div => right.evaluate x params ≠ 0
      | .pow =>
        0 < left.evaluate x params ∨
          right.dependsOn index = false ∧
            ∃ k : ℤ, right.evaluate x params = k ∧ (left.evaluate x params ≠ 0 ∨ 1 ≤ k)
  | call f argument => argument.Regular index x params ∧ f.Regular (argument.evaluate x params)

variable {x : ℝ} {params : List ℝ}

theorem hasDerivAt_apply (f : Elementary) (u : Formula ℝ)
    (regular : f.Regular (u.evaluate x params)) :
    HasDerivAt (f.apply : ℝ → ℝ) ((outerDerivative f u).evaluate x params)
      (u.evaluate x params) := by
  cases f with
  | exp => simpa [outerDerivative] using Real.hasDerivAt_exp (u.evaluate x params)
  | log => simpa [outerDerivative] using Real.hasDerivAt_log (ne_of_gt regular)
  | log10 =>
      refine ((Real.hasDerivAt_log (ne_of_gt regular)).div_const (Real.log 10)).congr_deriv ?_
      simp [outerDerivative, div_eq_mul_inv, mul_comm]
  | sin => simpa [outerDerivative] using Real.hasDerivAt_sin (u.evaluate x params)
  | cos => simpa [outerDerivative] using Real.hasDerivAt_cos (u.evaluate x params)
  | tan =>
      refine (Real.hasDerivAt_tan regular).congr_deriv ?_
      simp [outerDerivative]
  | sqrt =>
      refine (Real.hasDerivAt_sqrt (ne_of_gt regular)).congr_deriv ?_
      simp [outerDerivative]

/-- The three rules for powers. What does not depend on the parameter is a constant function. -/
theorem hasDerivAt_power {base exponent : ℝ → ℝ} {t : ℝ} {u v du dv : Formula ℝ}
    {baseVaries exponentVaries : Bool}
    (baseAt : base t = u.evaluate x params) (exponentAt : exponent t = v.evaluate x params)
    (baseDeriv : HasDerivAt base (du.evaluate x params) t)
    (exponentDeriv : HasDerivAt exponent (dv.evaluate x params) t)
    (baseFixed : baseVaries = false → base = fun _ => u.evaluate x params)
    (exponentFixed : exponentVaries = false → exponent = fun _ => v.evaluate x params)
    (regular : 0 < u.evaluate x params ∨
      exponentVaries = false ∧ (u.evaluate x params ≠ 0 ∨ 1 ≤ v.evaluate x params)) :
    HasDerivAt (fun s => base s ^ exponent s)
      ((powerDerivative u v du dv baseVaries exponentVaries).evaluate x params) t := by
  cases exponentVaries with
  | false =>
      rw [exponentFixed rfl]
      cases baseVaries with
      | false =>
          rw [baseFixed rfl]
          simpa [powerDerivative] using hasDerivAt_const t (u.evaluate x params ^ v.evaluate x params)
      | true =>
          have onDomain : base t ≠ 0 ∨ 1 ≤ v.evaluate x params := by
            rw [baseAt]
            exact regular.elim (fun positive => .inl (ne_of_gt positive)) And.right
          refine (baseDeriv.rpow_const onDomain).congr_deriv ?_
          simp only [powerDerivative, evaluate_foldMul, evaluate_foldPow, evaluate_foldSub,
            evaluate_whole, Nat.cast_one, baseAt]
          ring
  | true =>
      have positive : 0 < u.evaluate x params := regular.resolve_right fun fixed => nomatch fixed.1
      cases baseVaries with
      | false =>
          rw [baseFixed rfl]
          refine (exponentDeriv.const_rpow positive).congr_deriv ?_
          simp only [powerDerivative, evaluate_foldMul, evaluate_foldPow, evaluate_foldCall,
            Elementary.apply_log, exponentAt]
          ring
      | true =>
          refine (baseDeriv.rpow exponentDeriv (baseAt ▸ positive)).congr_deriv ?_
          rw [baseAt, exponentAt, Real.rpow_sub_one (ne_of_gt positive)]
          simp only [powerDerivative, evaluate_foldMul, evaluate_foldAdd, evaluate_foldPow,
            evaluate_foldDiv, evaluate_foldCall, Elementary.apply_log]
          ring

theorem hasDerivAt_along (formula : Formula ℝ) (index : Nat) (x : ℝ) (params : List ℝ) (t : ℝ)
    (covered : ∀ i ∈ formula.parameters, i < params.length)
    (regular : formula.Regular index x (params.set index t)) :
    HasDerivAt (fun s => formula.evaluate x (params.set index s))
      ((formula.derivative index).evaluate x (params.set index t)) t := by
  simp only [mem_parameters] at covered
  induction formula with
  | number value => simpa [derivative] using hasDerivAt_const t value
  | sample => simpa [derivative, evaluate] using hasDerivAt_const t x
  | param i =>
      have bound : i < params.length := covered i (by simp [dependsOn])
      by_cases same : i = index
      · subst same
        simpa [derivative, evaluate, List.getElem?_set_self bound] using hasDerivAt_id' t
      · simpa [derivative, evaluate, same, List.getElem?_set_ne (Ne.symm same)] using
          hasDerivAt_const t (params[i]?.getD Scalar.nan)
  | neg operand ih =>
      refine (ih regular covered).neg.congr_deriv ?_
      simp [derivative]
  | binary op u v ihu ihv =>
      obtain ⟨regularLeft, regularRight, atNode⟩ := regular
      have du := ihu regularLeft fun i mentioned => covered i (by simp [dependsOn, mentioned])
      have dv := ihv regularRight fun i mentioned => covered i (by simp [dependsOn, mentioned])
      have fixed (w : Formula ℝ) (absent : w.dependsOn index = false) :
          (fun s => w.evaluate x (params.set index s)) =
            fun _ => w.evaluate x (params.set index t) :=
        funext fun s => (evaluate_set absent x params s).trans (evaluate_set absent x params t).symm
      cases op with
      | add =>
          refine (du.add dv).congr_deriv ?_
          simp [derivative]
      | sub =>
          refine (du.sub dv).congr_deriv ?_
          simp [derivative]
      | mul =>
          refine (du.mul dv).congr_deriv ?_
          simp [derivative]
      | div =>
          by_cases varies : v.dependsOn index = true
          · refine (du.div dv atNode).congr_deriv ?_
            simp [derivative, varies]
          · have constant := congrFun (fixed v (Bool.eq_false_iff.mpr varies))
            simp only [evaluate_div, constant]
            refine (du.div_const (v.evaluate x (params.set index t))).congr_deriv ?_
            simp [derivative, varies]
      | pow =>
          refine hasDerivAt_power rfl rfl du dv (fixed u) (fixed v) ?_
          refine atNode.imp_right ?_
          rintro ⟨constant, k, whole, onDomain⟩
          refine ⟨constant, onDomain.imp_right fun positive => ?_⟩
          rw [whole]
          exact_mod_cast positive
  | call f argument ih =>
      obtain ⟨regularArgument, atNode⟩ := regular
      have inner := ih regularArgument covered
      refine (HasDerivAt.comp t (hasDerivAt_apply f argument atNode) inner).congr_deriv ?_
      by_cases zero : (argument.derivative index).isZero = true
      · have slope : (argument.derivative index).evaluate x (params.set index t) = 0 := by
          rw [eq_of_isZero zero, evaluate_number]
        simp [derivative, zero, slope]
      · simp [derivative, zero]

theorem set_getElem?_getD (params : List ℝ) (index : Nat) (default : ℝ) :
    params.set index (params[index]?.getD default) = params := by
  by_cases bound : index < params.length
  · simp [List.getElem?_eq_getElem bound]
  · exact List.set_eq_of_length_le (Nat.le_of_not_lt bound)

/-- Along one parameter a formula is differentiable, with the value of its symbolic derivative as
the slope. -/
theorem hasDerivAt_evaluate (formula : Formula ℝ) (index : Nat) (x : ℝ) (params : List ℝ)
    (covered : ∀ i ∈ formula.parameters, i < params.length)
    (regular : formula.Regular index x params) :
    HasDerivAt (fun t => formula.evaluate x (params.set index t))
      ((formula.derivative index).evaluate x params) (params[index]?.getD Scalar.nan) := by
  have here := set_getElem?_getD params index Scalar.nan
  have along := hasDerivAt_along formula index x params (params[index]?.getD Scalar.nan) covered
    (by rwa [here])
  rwa [here] at along

theorem hasDerivAt_evaluate_negative_base :
    let cube : Formula ℝ := binary .pow (binary .div (param 0) sample) (number 3)
    let formula := binary .mul cube (call .sqrt (param 1))
    (∀ i ∈ formula.parameters, i < 2) ∧ formula.Regular 0 2 [-4, 9] ∧
      HasDerivAt (fun t => formula.evaluate 2 [t, 9])
        ((formula.derivative 0).evaluate 2 [-4, 9]) (-4) := by
  intro cube formula
  have covered : ∀ i ∈ formula.parameters, i < [(-4 : ℝ), 9].length := by decide
  have regular : formula.Regular 0 2 [-4, 9] := by
    refine ⟨⟨⟨trivial, trivial, ?_⟩, trivial, .inr ⟨rfl, 3, ?_, .inr ?_⟩⟩, ⟨trivial, ?_⟩, trivial⟩
    · simp [evaluate]
    · simp [evaluate]
    · norm_num
    · simp [evaluate, Elementary.Regular]
  exact ⟨covered, regular, by simpa using hasDerivAt_evaluate formula 0 2 [-4, 9] covered regular⟩

end Formula

end LeastSquares
