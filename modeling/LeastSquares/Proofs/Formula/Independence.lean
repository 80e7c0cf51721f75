import LeastSquares.Proofs.MachineNumbers
import LeastSquares.Proofs.Formula.Printing
import LeastSquares.Proofs.Model.Compilation

namespace LeastSquares.Formula

variable {α : Type} [Scalar α]

def Vanishes (formula : Formula α) : Prop :=
  ∃ zero, formula = number zero ∧ (zero == ((0 : Nat) : α)) = true

def HasFiniteNumbers (formula : Formula α) : Prop :=
  ∀ a ∈ formula.numbers, Scalar.isFinite a = true

section FiniteNumbers

variable {u v : Formula α}

theorem HasFiniteNumbers.value {value : α} (finite : (number value).HasFiniteNumbers) :
    Scalar.isFinite value = true :=
  finite value List.mem_cons_self

theorem HasFiniteNumbers.left {op : Operator} (finite : (binary op u v).HasFiniteNumbers) :
    u.HasFiniteNumbers :=
  fun a member => finite a (List.mem_append_left _ member)

theorem HasFiniteNumbers.right {op : Operator} (finite : (binary op u v).HasFiniteNumbers) :
    v.HasFiniteNumbers :=
  fun a member => finite a (List.mem_append_right _ member)

end FiniteNumbers

namespace Vanishes

variable {u v : Formula α}

theorem isZero (vanishes : u.Vanishes) : u.isZero = true := by
  obtain ⟨zero, rfl, isZero⟩ := vanishes
  exact isZero

variable [VanishingLaws α]

theorem whole_zero : (whole 0 : Formula α).Vanishes :=
  ⟨_, rfl, VanishingLaws.zero_beq_zero⟩

theorem foldNeg (vanishes : u.Vanishes) : u.foldNeg.Vanishes := by
  obtain ⟨zero, rfl, isZero⟩ := vanishes
  exact ⟨-zero, rfl, VanishingLaws.neg isZero⟩

theorem foldAdd (left : u.Vanishes) (right : v.Vanishes) : (foldAdd u v).Vanishes := by
  obtain ⟨zero, rfl, isZero⟩ := left
  obtain ⟨zeroToo, rfl, isZeroToo⟩ := right
  exact ⟨zero + zeroToo, rfl, VanishingLaws.add isZero isZeroToo⟩

theorem foldSub (left : u.Vanishes) (right : v.Vanishes) : (foldSub u v).Vanishes := by
  obtain ⟨zero, rfl, isZero⟩ := left
  obtain ⟨zeroToo, rfl, isZeroToo⟩ := right
  exact ⟨zero - zeroToo, rfl, VanishingLaws.sub isZero isZeroToo⟩

theorem foldMul_left (left : u.Vanishes) (finite : v.HasFiniteNumbers) :
    (foldMul u v).Vanishes := by
  obtain ⟨zero, rfl, isZero⟩ := left
  cases v with
  | number value => exact ⟨zero * value, rfl, VanishingLaws.mul_finite isZero finite.value⟩
  | _ => simpa [Formula.foldMul, asNumber?, Formula.isZero, isZero] using whole_zero

theorem foldMul_right (finite : u.HasFiniteNumbers) (right : v.Vanishes) :
    (foldMul u v).Vanishes := by
  obtain ⟨zero, rfl, isZero⟩ := right
  cases u with
  | number value => exact ⟨value * zero, rfl, VanishingLaws.finite_mul finite.value isZero⟩
  | _ => simpa [Formula.foldMul, asNumber?, Formula.isZero, isZero] using whole_zero

theorem foldDiv (left : u.Vanishes) (finite : v.HasFiniteNumbers) : (foldDiv u v).Vanishes := by
  obtain ⟨zero, rfl, isZero⟩ := left
  cases v with
  | number value =>
      cases divisor : value == ((0 : Nat) : α) with
      | true => simpa [Formula.foldDiv, asNumber?, Formula.isZero, isZero, divisor] using whole_zero
      | false =>
          refine ⟨zero / value, ?_, VanishingLaws.div_finite isZero finite.value divisor⟩
          simp [Formula.foldDiv, asNumber?, divisor]
  | _ => simpa [Formula.foldDiv, asNumber?, Formula.isZero, isZero] using whole_zero

end Vanishes

theorem vanishes_derivative [VanishingLaws α] (formula : Formula α) {index : Nat}
    (free : formula.dependsOn index = false) (finite : formula.HasFiniteNumbers) :
    (formula.derivative index).Vanishes := by
  induction formula with
  | number value => exact .whole_zero
  | sample => exact .whole_zero
  | param i =>
      have other : i ≠ index := of_decide_eq_false free
      simpa [derivative, other] using Vanishes.whole_zero
  | neg operand ih => exact (ih free finite).foldNeg
  | binary op u v ihu ihv =>
      obtain ⟨left, right⟩ := Bool.or_eq_false_iff.mp free
      have du := ihu left finite.left
      have dv := ihv right finite.right
      cases op with
      | add => exact du.foldAdd dv
      | sub => exact du.foldSub dv
      | mul => exact (du.foldMul_left finite.right).foldAdd (.foldMul_right finite.left dv)
      | div => simpa [derivative, right] using du.foldDiv finite.right
      | pow => simpa [derivative, powerDerivative, left, right] using Vanishes.whole_zero
  | call f argument ih => simpa [derivative, (ih free finite).isZero] using Vanishes.whole_zero

/-- Not to mention a parameter means the same for the tree, the list of parameters and the program,
and then neither a value nor, with finite numbers, the derivative depends on it. -/
theorem independent_of_absent [VanishingLaws α] (formula : Formula α) (index : Nat) :
    (formula.dependsOn index = true ↔ index ∈ formula.parameters) ∧
      (formula.dependsOn index = true ↔
        Instruction.loadParam index ∈ (Program.lower formula).instructions) ∧
      (formula.dependsOn index = false →
        (∀ (x : α) (p q : List α), (∀ i, i ≠ index → p[i]? = q[i]?) →
          formula.evaluate x p = formula.evaluate x q) ∧
        ((∀ a ∈ formula.numbers, Scalar.isFinite a = true) →
          ∃ zero, formula.derivative index = number zero ∧ (zero == ((0 : Nat) : α)) = true)) := by
  refine ⟨(mem_parameters formula index).symm, (Program.loadParam_mem_emit formula index).symm,
    fun free => ⟨fun x p q agree => ?_, formula.vanishes_derivative free⟩⟩
  apply formula.evaluate_congr
  intro i mentioned
  apply agree
  rintro rfl
  rw [free] at mentioned
  cases mentioned

theorem independent_of_absent_difference :
    let formula : Formula Float :=
      binary .sub (neg (number 2.5)) (binary .mul (number 0.1) (param 1))
    formula.dependsOn 0 = false ∧ (∀ a ∈ formula.numbers, Scalar.isFinite a = true) ∧
      (∀ i, i ≠ 0 → [1.0, 5.0][i]? = [2.0, (5.0 : Float)][i]?) ∧
      formula.evaluate 3.0 [1.0, 5.0] = formula.evaluate 3.0 [2.0, 5.0] ∧
      ∃ zero, formula.derivative 0 = number zero ∧ (zero == ((0 : Nat) : Float)) = true := by
  intro formula
  have free : formula.dependsOn 0 = false := rfl
  have finite : ∀ a ∈ formula.numbers, Scalar.isFinite a = true := by decide +kernel
  have agree : ∀ i, i ≠ 0 → [1.0, 5.0][i]? = [2.0, (5.0 : Float)][i]? := by
    intro i other
    obtain ⟨i, rfl⟩ := Nat.exists_eq_succ_of_ne_zero other
    rw [List.getElem?_cons_succ, List.getElem?_cons_succ]
  obtain ⟨-, -, independent⟩ := independent_of_absent formula 0
  exact ⟨free, finite, agree, (independent free).1 3.0 _ _ agree, (independent free).2 finite⟩

end LeastSquares.Formula
