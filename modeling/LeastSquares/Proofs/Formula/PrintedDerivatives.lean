import LeastSquares.Proofs.Formula.Dependence
import LeastSquares.Proofs.Formula.RoundTrip
import LeastSquares.Proofs.Formula.SignedPrinting

/-!
# Printing derivatives

Differentiation makes negative numbers and negative zeros, but never puts one under a power: a new
power has an old base, a divisor that mentions the parameter, or a cosine. So whatever a derivative
of a formula that was read is printed as, it is read, if at all, as a formula of the same values.
-/

namespace LeastSquares.Formula

section Numbers

variable {α : Type} {u : Formula α}

theorem asNumber?_of_dependsOn {index : Nat} (mentioned : u.dependsOn index = true) :
    u.asNumber? = none := by
  cases u with
  | number value => cases mentioned
  | sample | param _ | neg _ | binary _ _ _ | call _ _ => rfl

variable [Scalar α]

theorem asNumber?_of_derivative [VanishingLaws α] {index : Nat}
    (varies : (u.derivative index).isZero = false) : u.asNumber? = none := by
  cases u with
  | number value =>
      have zero : ((number value).derivative index).isZero = true := VanishingLaws.zero_beq_zero
      rw [zero] at varies
      cases varies
  | sample | param _ | neg _ | binary _ _ _ | call _ _ => rfl

theorem asNumber?_foldCall (f : Elementary) (other : u.asNumber? = none) :
    (foldCall f u).asNumber? = none := by
  rw [foldCall, other]
  rfl

end Numbers

section Bases

variable {α : Type} [Scalar α] [ToDecimal α] {u v : Formula α}

theorem not_showsBareSign_of_asNumber? (other : u.asNumber? = none) : ¬ u.ShowsBareSign := by
  cases u with
  | number value => cases other
  | sample | param _ | neg _ | binary _ _ _ | call _ _ => exact id

theorem hereditary_basesEnclosed : Hereditary (BasesEnclosed : Formula α → Prop) where
  number _ := trivial
  neg := .rfl
  add left right := ⟨nofun, left, right⟩
  sub left right := ⟨nofun, left, right⟩
  mul left right := ⟨nofun, left, right⟩

namespace BasesEnclosed

theorem foldDiv (left : u.BasesEnclosed) (right : v.BasesEnclosed) : (foldDiv u v).BasesEnclosed :=
  hereditary_basesEnclosed.foldDiv left fun left => ⟨nofun, left, right⟩

theorem foldPow (base : ¬ u.ShowsBareSign) (left : u.BasesEnclosed) (right : v.BasesEnclosed) :
    (foldPow u v).BasesEnclosed :=
  hereditary_basesEnclosed.foldPow left ⟨fun _ => base, left, right⟩

theorem foldCall (f : Elementary) (argument : u.BasesEnclosed) : (foldCall f u).BasesEnclosed :=
  hereditary_basesEnclosed.foldCall argument

theorem outerDerivative (f : Elementary) (other : u.asNumber? = none)
    (enclosed : u.BasesEnclosed) : (outerDerivative f u).BasesEnclosed := by
  have folds := hereditary_basesEnclosed (α := α)
  cases f with
  | exp => exact enclosed.foldCall _
  | log => exact (folds.whole 1).foldDiv enclosed
  | log10 => exact (folds.whole 1).foldDiv (folds.foldMul enclosed (folds.number _))
  | sin => exact enclosed.foldCall _
  | cos => exact folds.foldNeg (enclosed.foldCall _)
  | tan =>
      have cosine := not_showsBareSign_of_asNumber? (asNumber?_foldCall .cos other)
      exact (folds.whole 1).foldDiv (foldPow cosine (enclosed.foldCall _) (folds.whole 2))
  | sqrt => exact (folds.whole 1).foldDiv (folds.foldMul (folds.whole 2) (enclosed.foldCall _))

theorem powerDerivative {du dv : Formula α} (baseVaries exponentVaries : Bool)
    (base : ¬ u.ShowsBareSign) (left : u.BasesEnclosed) (right : v.BasesEnclosed)
    (leftToo : du.BasesEnclosed) (rightToo : dv.BasesEnclosed) :
    (powerDerivative u v du dv baseVaries exponentVaries).BasesEnclosed := by
  have folds := hereditary_basesEnclosed (α := α)
  have power := foldPow base left right
  have logarithm := left.foldCall .log
  match baseVaries, exponentVaries with
  | false, false => exact folds.whole 0
  | true, false =>
      have lowered := foldPow base left (folds.foldSub right (folds.whole 1))
      exact folds.foldMul (folds.foldMul right lowered) leftToo
  | false, true => exact folds.foldMul (folds.foldMul power logarithm) rightToo
  | true, true =>
      have quotient := (folds.foldMul right leftToo).foldDiv left
      exact folds.foldMul power (folds.foldAdd (folds.foldMul rightToo logarithm) quotient)

theorem derivative [VanishingLaws α] {formula : Formula α} (enclosed : formula.BasesEnclosed)
    (index : Nat) : (formula.derivative index).BasesEnclosed := by
  have folds := hereditary_basesEnclosed (α := α)
  induction formula with
  | number _ | sample | param _ => exact folds.whole _
  | neg operand ih => exact folds.foldNeg (ih enclosed)
  | binary op u v ihu ihv =>
      obtain ⟨base, left, right⟩ := enclosed
      have leftToo := ihu left
      have rightToo := ihv right
      cases op with
      | add => exact folds.foldAdd leftToo rightToo
      | sub => exact folds.foldSub leftToo rightToo
      | mul => exact folds.foldAdd (folds.foldMul leftToo right) (folds.foldMul left rightToo)
      | div =>
          rw [Formula.derivative]
          split
          · next mentioned =>
              have divisor := not_showsBareSign_of_asNumber? (asNumber?_of_dependsOn mentioned)
              exact (folds.foldSub (folds.foldMul leftToo right)
                (folds.foldMul left rightToo)).foldDiv (foldPow divisor right (folds.whole 2))
          · exact leftToo.foldDiv right
      | pow => exact powerDerivative _ _ (base rfl) left right leftToo rightToo
  | call f argument ih =>
      rw [Formula.derivative]
      split
      · exact folds.whole 0
      · next varies =>
          -- The argument varies, so it is no number and its cosine does not fold to one.
          have other := asNumber?_of_derivative (Bool.eq_false_iff.mpr varies)
          exact folds.foldMul (outerDerivative f other enclosed) (ih enclosed)

theorem derivativeAlong [VanishingLaws α] (path : List Nat) {formula : Formula α}
    (enclosed : formula.BasesEnclosed) : (formula.derivativeAlong path).BasesEnclosed := by
  induction path generalizing formula with
  | nil => exact enclosed
  | cons index path ih => exact ih (enclosed.derivative index)

end BasesEnclosed

end Bases

theorem dependsOn_of_derivativeAlong {α : Type} [Scalar α] {path : List Nat} {formula : Formula α}
    {i : Nat} (mentioned : (formula.derivativeAlong path).dependsOn i = true) :
    formula.dependsOn i = true := by
  induction path generalizing formula with
  | nil => exact mentioned
  | cons index path ih => exact dependsOn_of_derivative (ih mentioned)

section Reading

variable {α : Type} [Scalar α] [ToDecimal α] {formula again : Formula α}

theorem evaluate_of_parse_text [ConstantLaws α]
    (bounded : ∀ i, formula.dependsOn i = true → i < UInt64.size)
    (enclosed : formula.BasesEnclosed) (exactly : ∀ a ∈ formula.numbers, PrintsExactly a)
    (read : parse formula.text = .ok again) (x : α) (params : List α) :
    again.evaluate x params = formula.evaluate x params := by
  obtain ⟨other, nesting, derived, same⟩ := (conveys_tokens formula bounded enclosed exactly).1
  have spells := formula.spells_text
  have whole := derived.chain_of_unary .sum
  by_cases within : nesting ≤ nestingLimit ∧ other.height ≤ nestingLimit
  · have readToo := parse_of_sentence ⟨_, nesting, spells, whole, within⟩
    rw [read] at readToo
    cases readToo
    exact same x params
  · obtain ⟨column, refused⟩ := parse_of_deep spells whole (by omega)
    rw [read] at refused
    cases refused

end Reading

/-- The text of a derivative of any order of a formula that was read: if it is read again, then as a
formula that has the values of the derivative. -/
theorem parse_text_derivativeAlong {source : String} {formula again : Formula Float}
    (read : parse source = .ok formula) (path : List Nat)
    (exactly : ∀ a ∈ (formula.derivativeAlong path).numbers,
      Scalar.isFinite a = true → PrintsExactly a)
    (readAgain : parse (formula.derivativeAlong path).text = .ok again) (x : Float)
    (params : List Float) :
    again.evaluate x params = (formula.derivativeAlong path).evaluate x params := by
  obtain ⟨tokens, nesting, spells, derived, -⟩ := sentence_of_parse read
  have enclosed : formula.BasesEnclosed := basesEnclosed_of_unsigned fun a member =>
    printsUnsigned_of_positive (derived.positive member)
  exact evaluate_of_parse_text (fun i found => derived.bounded (dependsOn_of_derivativeAlong found))
    (enclosed.derivativeAlong path)
    (fun a member => exactly a member (isFinite_of_parse_text readAgain member)) readAgain x params

/-- The derivative of `-x` is negative zero, whose text `-0` is read as the negation of zero. -/
theorem parse_text_derivativeAlong_negative_zero :
    let formula : Formula Float := neg sample
    let again : Formula Float := neg (number (Scalar.ofDecimal 0 0))
    parse "-x" = .ok formula ∧ (formula.derivativeAlong [0]).text = "-0" ∧
      (∀ a ∈ (formula.derivativeAlong [0]).numbers, Scalar.isFinite a = true → PrintsExactly a) ∧
      parse (formula.derivativeAlong [0]).text = .ok again ∧ ∀ (x : Float) (params : List Float),
        again.evaluate x params = (formula.derivativeAlong [0]).evaluate x params := by
  intro formula again
  have ended : Spells [] [] := .done fun c member => by cases member
  have isWord : IsWord ['x'] := isWord_cons rfl rfl
  have read : parse "-x" = .ok formula :=
    parse_minuses 1 ((reads_word isWord ends_nil.stops).spells ended)
      (.name (.sample : Names _ (sample : Formula Float))) rfl (by decide)
  have printed : (formula.derivativeAlong [0]).text = "-0" := by decide +kernel
  have exactly : ∀ a ∈ (formula.derivativeAlong [0]).numbers,
      Scalar.isFinite a = true → PrintsExactly a := by
    intro a member _
    rw [List.mem_singleton.mp member]
    exact ⟨true, 0, 0, by decide +kernel, rfl⟩
  have readAgain : parse (formula.derivativeAlong [0]).text = .ok again := by
    have zero : numeral ['0'] = .decimal 0 0 ⟨[], by decide⟩ := rfl
    rw [printed]
    exact parse_minuses 1 ((numeral_sound zero).spells ended) (Derives.number (α := Float) 0 0) rfl
      (by decide)
  exact ⟨read, printed, exactly, readAgain, parse_text_derivativeAlong read [0] exactly readAgain⟩

end LeastSquares.Formula
