import LeastSquares.Proofs.Formula.Shapes
import Mathlib.Data.List.Sort

namespace LeastSquares.Formula

variable {α : Type}

theorem mem_insertIndex (i index : Nat) (known : List Nat) :
    i ∈ insertIndex index known ↔ i = index ∨ i ∈ known := by
  induction known with
  | nil => simp [insertIndex]
  | cons head tail ih =>
      by_cases below : index < head
      · simp only [insertIndex, if_pos below, List.mem_cons]
      · by_cases same : index = head
        · simp [insertIndex, same]
        · simp only [insertIndex, if_neg below, if_neg same, List.mem_cons, ih, or_left_comm]

theorem mem_addParameters (formula : Formula α) (i : Nat) (known : List Nat) :
    i ∈ formula.addParameters known ↔ formula.dependsOn i = true ∨ i ∈ known := by
  induction formula generalizing known with
  | number _ => simp [addParameters, dependsOn]
  | sample => simp [addParameters, dependsOn]
  | param index => simp [addParameters, dependsOn, mem_insertIndex, eq_comm]
  | neg operand ih => simpa only [addParameters, dependsOn] using ih known
  | binary _ left right ihl ihr =>
      simp only [addParameters, dependsOn, ihl, ihr, Bool.or_eq_true, or_left_comm, or_assoc]
  | call _ argument ih => simpa only [addParameters, dependsOn] using ih known

theorem mem_parameters (formula : Formula α) (i : Nat) :
    i ∈ formula.parameters ↔ formula.dependsOn i = true := by
  simp [parameters, mem_addParameters]

theorem pairwise_insertIndex (index : Nat) {known : List Nat} (increasing : known.Pairwise (· < ·)) :
    (insertIndex index known).Pairwise (· < ·) := by
  induction increasing with
  | nil => exact List.pairwise_singleton _ index
  | @cons head tail above rest ih =>
      by_cases below : index < head
      · rw [insertIndex, if_pos below]
        refine .cons (fun i member => ?_) (.cons above rest)
        rcases List.mem_cons.mp member with rfl | later
        · exact below
        · exact below.trans (above i later)
      · by_cases same : index = head
        · rw [insertIndex, if_neg below, if_pos same]
          exact .cons above rest
        · rw [insertIndex, if_neg below, if_neg same]
          refine .cons (fun i member => ?_) ih
          rcases (mem_insertIndex i index tail).mp member with rfl | later
          · omega
          · exact above i later

theorem pairwise_addParameters (formula : Formula α) {known : List Nat}
    (increasing : known.Pairwise (· < ·)) : (formula.addParameters known).Pairwise (· < ·) := by
  induction formula generalizing known with
  | number _ | sample => exact increasing
  | param index => exact pairwise_insertIndex index increasing
  | neg operand ih => exact ih increasing
  | binary _ left right ihl ihr => exact ihr (ihl increasing)
  | call _ argument ih => exact ih increasing

theorem pairwise_parameters (formula : Formula α) : formula.parameters.Pairwise (· < ·) :=
  formula.pairwise_addParameters .nil

theorem parameters_eq_range_iff (formula : Formula α) (n : Nat) :
    formula.parameters = List.range n ↔ ∀ i, formula.dependsOn i = true ↔ i < n := by
  constructor
  · intro same i
    rw [← mem_parameters, same, List.mem_range]
  · intro mentioned
    apply formula.pairwise_parameters.eq_of_mem_iff List.pairwise_lt_range
    intro i
    rw [mem_parameters, mentioned, List.mem_range]

theorem dependsOn_binary {op : Operator} {u v : Formula α} {i : Nat} :
    (binary op u v).dependsOn i = false ↔ u.dependsOn i = false ∧ v.dependsOn i = false :=
  Bool.or_eq_false_iff

theorem hereditary_dependsOn (i : Nat) : Hereditary fun u : Formula α => u.dependsOn i = false where
  number _ := rfl
  neg := .rfl
  add left right := dependsOn_binary.mpr ⟨left, right⟩
  sub left right := dependsOn_binary.mpr ⟨left, right⟩
  mul left right := dependsOn_binary.mpr ⟨left, right⟩

variable [Scalar α]

theorem evaluate_congr (formula : Formula α) (x : α) {p q : List α}
    (agree : ∀ i, formula.dependsOn i = true → p[i]? = q[i]?) :
    formula.evaluate x p = formula.evaluate x q := by
  induction formula with
  | number _ => rfl
  | sample => rfl
  | param index => simp only [evaluate, agree index (by simp [dependsOn])]
  | neg operand ih => simp only [evaluate, ih agree]
  | binary op left right ihl ihr =>
      have onLeft := ihl fun i mentioned => agree i (by simp [dependsOn, mentioned])
      have onRight := ihr fun i mentioned => agree i (by simp [dependsOn, mentioned])
      simp only [evaluate, onLeft, onRight]
  | call f argument ih => simp only [evaluate, ih agree]

theorem evaluate_set {formula : Formula α} {index : Nat} (fixed : formula.dependsOn index = false)
    (x : α) (params : List α) (value : α) :
    formula.evaluate x (params.set index value) = formula.evaluate x params := by
  apply evaluate_congr
  intro i mentioned
  have other : index ≠ i := by
    rintro rfl
    simp [fixed] at mentioned
  exact List.getElem?_set_ne other

section Derivatives

variable {u v : Formula α} {i : Nat}

theorem dependsOn_foldDiv (left : u.dependsOn i = false) (right : v.dependsOn i = false) :
    (foldDiv u v).dependsOn i = false :=
  (hereditary_dependsOn i).foldDiv left fun left => dependsOn_binary.mpr ⟨left, right⟩

theorem dependsOn_foldPow (left : u.dependsOn i = false) (right : v.dependsOn i = false) :
    (foldPow u v).dependsOn i = false :=
  (hereditary_dependsOn i).foldPow left (dependsOn_binary.mpr ⟨left, right⟩)

theorem dependsOn_foldCall (f : Elementary) (free : u.dependsOn i = false) :
    (foldCall f u).dependsOn i = false :=
  (hereditary_dependsOn i).foldCall free

theorem dependsOn_outerDerivative (f : Elementary) (free : u.dependsOn i = false) :
    (outerDerivative f u).dependsOn i = false := by
  have fixed := hereditary_dependsOn (α := α) i
  cases f with
  | exp => exact dependsOn_foldCall _ free
  | log => exact dependsOn_foldDiv (fixed.whole 1) free
  | log10 => exact dependsOn_foldDiv (fixed.whole 1) (fixed.foldMul free (fixed.number _))
  | sin => exact dependsOn_foldCall _ free
  | cos => exact fixed.foldNeg (dependsOn_foldCall _ free)
  | tan =>
      exact dependsOn_foldDiv (fixed.whole 1)
        (dependsOn_foldPow (dependsOn_foldCall _ free) (fixed.whole 2))
  | sqrt =>
      exact dependsOn_foldDiv (fixed.whole 1)
        (fixed.foldMul (fixed.whole 2) (dependsOn_foldCall _ free))

theorem dependsOn_powerDerivative {du dv : Formula α} (baseVaries exponentVaries : Bool)
    (base : u.dependsOn i = false) (exponent : v.dependsOn i = false)
    (baseToo : du.dependsOn i = false) (exponentToo : dv.dependsOn i = false) :
    (powerDerivative u v du dv baseVaries exponentVaries).dependsOn i = false := by
  have fixed := hereditary_dependsOn (α := α) i
  have power := dependsOn_foldPow base exponent
  have logarithm := dependsOn_foldCall .log base
  match baseVaries, exponentVaries with
  | false, false => rfl
  | true, false =>
      have lowered := dependsOn_foldPow base (fixed.foldSub exponent (fixed.whole 1))
      exact fixed.foldMul (fixed.foldMul exponent lowered) baseToo
  | false, true => exact fixed.foldMul (fixed.foldMul power logarithm) exponentToo
  | true, true =>
      have quotient := dependsOn_foldDiv (fixed.foldMul exponent baseToo) base
      exact fixed.foldMul power (fixed.foldAdd (fixed.foldMul exponentToo logarithm) quotient)

theorem dependsOn_derivative {formula : Formula α} (index : Nat)
    (free : formula.dependsOn i = false) : (formula.derivative index).dependsOn i = false := by
  have fixed := hereditary_dependsOn (α := α) i
  induction formula with
  | number _ | sample | param _ => rfl
  | neg operand ih => exact fixed.foldNeg (ih free)
  | binary op u v ihu ihv =>
      obtain ⟨left, right⟩ := dependsOn_binary.mp free
      have leftToo := ihu left
      have rightToo := ihv right
      cases op with
      | add => exact fixed.foldAdd leftToo rightToo
      | sub => exact fixed.foldSub leftToo rightToo
      | mul => exact fixed.foldAdd (fixed.foldMul leftToo right) (fixed.foldMul left rightToo)
      | div =>
          rw [derivative]
          split
          · exact dependsOn_foldDiv
              (fixed.foldSub (fixed.foldMul leftToo right) (fixed.foldMul left rightToo))
              (dependsOn_foldPow right (fixed.whole 2))
          · exact dependsOn_foldDiv leftToo right
      | pow => exact dependsOn_powerDerivative _ _ left right leftToo rightToo
  | call f argument ih =>
      rw [derivative]
      split
      · rfl
      · exact fixed.foldMul (dependsOn_outerDerivative f free) (ih free)

theorem dependsOn_of_derivative {formula : Formula α} {index : Nat}
    (mentioned : (formula.derivative index).dependsOn i = true) : formula.dependsOn i = true := by
  by_contra free
  rw [dependsOn_derivative index (Bool.eq_false_iff.mpr free)] at mentioned
  cases mentioned

end Derivatives

end LeastSquares.Formula
