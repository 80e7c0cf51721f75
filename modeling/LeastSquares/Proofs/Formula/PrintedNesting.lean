import LeastSquares.Error
import LeastSquares.Proofs.Formula.Dependence
import LeastSquares.Proofs.Formula.RoundTrip

namespace LeastSquares

theorem SyntaxError.message_tooDeep (column : Nat) : (tooDeep column).message =
    "expression nested too deeply at column " ++ toString column ++ " (limit 128 levels)" := by
  have limit : " (limit " ++ toString Formula.nestingLimit ++ " levels)" = " (limit 128 levels)" := by
    decide
  rw [← limit, ← String.append_assoc, ← String.append_assoc]
  rfl

namespace Formula

/-- What is printed for a formula of finite numbers without a sign is read as an equal formula if it
nests within the limit and the formula is no higher than the limit, and is refused as too deep
otherwise. -/
theorem parse_text_limited (formula : Formula Float)
    (clear : ∀ a ∈ formula.numbers, Scalar.isFinite a = true ∧ a.toBits >>> 63 = 0)
    (bounded : ∀ i ∈ formula.parameters, i < UInt64.size)
    (readsBack : ∀ a ∈ formula.numbers, ReadsBack a) :
    (formula.printedNesting ≤ 128 ∧ formula.height ≤ 128 →
      ∃ again, parse formula.text = .ok again ∧ (formula == again) = true) ∧
    (¬ (formula.printedNesting ≤ 128 ∧ formula.height ≤ 128) →
      ∃ column, parse (α := Float) formula.text = .error (.tooDeep column) ∧
        (SyntaxError.tooDeep column).message =
          "expression nested too deeply at column " ++ toString column ++ " (limit 128 levels)") := by
  have indices (i : Nat) (found : formula.dependsOn i = true) : i < UInt64.size :=
    bounded i ((mem_parameters formula i).mpr found)
  have unsigned : ∀ a ∈ formula.numbers, PrintsUnsigned a := fun a member =>
    printsUnsigned_of_positive
      (MachineNumber.positive_of_signBit (clear a member).1 (clear a member).2)
  constructor
  · rintro ⟨shallow, low⟩
    exact parse_text_of_low indices unsigned readsBack shallow low
  · intro beyond
    have exceeds : nestingLimit < formula.printedNesting ∨ nestingLimit < formula.height := by
      rwa [not_and_or, not_le, not_le] at beyond
    obtain ⟨column, refused⟩ := parse_text_of_high indices unsigned readsBack exceeds
    exact ⟨column, refused, SyntaxError.message_tooDeep column⟩

section Called

variable {α : Type} (f : Elementary) (count : Nat) (argument : Formula α)

def called : Nat → Formula α → Formula α
  | 0, argument => argument
  | count + 1, argument => call f (called count argument)

theorem height_called : (called f count argument).height = argument.height + count := by
  induction count with
  | zero => rfl
  | succ count ih => rw [called, height, ih, Nat.add_assoc]

theorem printedNesting_called :
    (called f count argument).printedNesting = argument.printedNesting + count := by
  induction count with
  | zero => rfl
  | succ count ih => rw [called, printedNesting, ih, Nat.add_assoc]

theorem dependsOn_called (i : Nat) :
    (called f count argument).dependsOn i = argument.dependsOn i := by
  induction count with
  | zero => rfl
  | succ count ih => rw [called, dependsOn, ih]

theorem numbers_called : (called f count argument).numbers = argument.numbers := by
  induction count with
  | zero => rfl
  | succ count ih => rw [called, numbers, ih]

end Called

theorem parse_text_limited_tenth :
    let tenth : Formula Float := number (Scalar.ofDecimal 1 (-1))
    (∃ again, parse (negated 64 tenth).text = .ok again ∧ (negated 64 tenth == again) = true) ∧
      (∃ column, parse (α := Float) (negated 65 tenth).text = .error (.tooDeep column)) ∧
      (∃ again, parse (called .sin 127 tenth).text = .ok again ∧
        (called .sin 127 tenth == again) = true) ∧
      (called .sin 128 tenth).printedNesting = 128 ∧
      ∃ column, parse (α := Float) (called .sin 128 tenth).text = .error (.tooDeep column) := by
  intro tenth
  have clear : ∀ a ∈ tenth.numbers, Scalar.isFinite a = true ∧ a.toBits >>> 63 = 0 := by
    decide +kernel
  have readsBack : ∀ a ∈ tenth.numbers, ReadsBack a := by
    intro a member
    rw [List.mem_singleton.mp member]
    exact readsBack_tenth
  have signs (count : Nat) :
      ∀ i ∈ (negated count tenth).parameters, i < UInt64.size := by
    intro i mentioned
    rw [mem_parameters, dependsOn_negated] at mentioned
    cases mentioned
  have calls (count : Nat) :
      ∀ i ∈ (called .sin count tenth).parameters, i < UInt64.size := by
    intro i mentioned
    rw [mem_parameters, dependsOn_called] at mentioned
    cases mentioned
  have negations (count : Nat) := parse_text_limited (negated count tenth)
    (by rwa [numbers_negated]) (signs count) (by rwa [numbers_negated])
  have applications (count : Nat) := parse_text_limited (called .sin count tenth)
    (by rwa [numbers_called]) (calls count) (by rwa [numbers_called])
  have nests (count : Nat) : (called .sin count tenth).printedNesting = count :=
    (printedNesting_called .sin count tenth).trans (Nat.zero_add count)
  have high (count : Nat) : (called .sin count tenth).height = 1 + count :=
    height_called .sin count tenth
  refine ⟨(negations 64).1 (by decide), ?_, (applications 127).1 ?_, nests 128, ?_⟩
  · obtain ⟨column, refused, -⟩ := (negations 65).2 (by decide)
    exact ⟨column, refused⟩
  · rw [nests, high]
    decide
  · obtain ⟨column, refused, -⟩ := (applications 128).2 (by rw [nests, high]; decide)
    exact ⟨column, refused⟩

end Formula

end LeastSquares
