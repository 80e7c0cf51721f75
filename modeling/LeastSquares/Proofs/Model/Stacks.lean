import LeastSquares.Proofs.Model.Columns
import Mathlib.Data.List.Induction
import Mathlib.Order.Bounds.Basic

/-!
# The stack of a program

Beside the machine that makes up for what it misses stands one that stops there (`run?`). On the
program of a formula the two do the same, because the program takes no column that is not on the
stack (`findsOperands_emit`). The depths that are counted when a formula is lowered are those of the
stack when its program is run, and the greatest of them is the number stored with the program.
-/

namespace LeastSquares

variable {α : Type}

namespace Instruction

def operands : Instruction α → Nat
  | constant _ | loadSample | loadParam _ => 0
  | neg | call _ => 1
  | binary _ => 2

theorem depthAfter_add_operands {instruction : Instruction α} {depth : Nat}
    (found : instruction.operands ≤ depth) :
    instruction.depthAfter depth + instruction.operands = depth + 1 := by
  cases instruction with
  | constant value | loadSample | loadParam index => rfl
  | neg | call f => rfl
  | binary op =>
      -- Two columns are there, so the subtraction is not cut off at zero.
      simp only [operands] at found
      simp only [depthAfter, operands]
      omega

theorem one_le_depthAfter {instruction : Instruction α} {depth : Nat}
    (found : instruction.operands ≤ depth) : 1 ≤ instruction.depthAfter depth := by
  have total := depthAfter_add_operands found
  omega

section Execution

variable [Scalar α]

theorem length_execute {count : Nat} (samples : Vector α count) (params : List α)
    (instruction : Instruction α) (stack : List (Vector α count)) :
    (instruction.execute samples params stack).length = instruction.depthAfter stack.length := by
  cases instruction with
  | constant value | loadSample | loadParam index => rfl
  | neg | call f => cases stack <;> rfl
  | binary op => rcases stack with _ | ⟨right, _ | ⟨left, stack⟩⟩ <;> rfl

def execute? (samples params : List α) : Instruction α → List (List α) → Option (List (List α))
  | constant value, stack => some (List.replicate samples.length value :: stack)
  | loadSample, stack => some (samples :: stack)
  | loadParam index, stack =>
    some (List.replicate samples.length (params[index]?.getD Scalar.nan) :: stack)
  | neg, top :: stack => some (top.map (- ·) :: stack)
  | call f, top :: stack => some (top.map f.apply :: stack)
  | binary op, right :: left :: stack =>
    if left.length = right.length then some (List.zipWith op.apply left right :: stack) else none
  | _, _ => none

theorem execute?_toList {count : Nat} (samples : Vector α count) (params : List α)
    {instruction : Instruction α} {stack : List (Vector α count)}
    (found : instruction.operands ≤ stack.length) :
    instruction.execute? samples.toList params (stack.map Vector.toList) =
      some ((instruction.execute samples params stack).map Vector.toList) := by
  cases instruction with
  | constant value | loadParam index => simp [execute?, execute]
  | loadSample => rfl
  | neg | call f =>
      obtain ⟨top, stack, rfl⟩ := List.exists_cons_of_length_pos found
      simp [execute?, execute, Vector.toList_map]
  | binary op =>
      obtain ⟨right, left, stack, rfl⟩ : ∃ right left below, stack = right :: left :: below := by
        match stack, found with
        | right :: left :: below, _ => exact ⟨right, left, below, rfl⟩
      simp [execute?, execute]

end Execution

end Instruction

namespace Program

/-! ## Depths -/

def depthAfter (instructions : List (Instruction α)) (depth : Nat) : Nat :=
  instructions.foldl (fun depth instruction => instruction.depthAfter depth) depth

theorem depthAfter_append (first second : List (Instruction α)) (depth : Nat) :
    depthAfter (first ++ second) depth = depthAfter second (depthAfter first depth) :=
  List.foldl_append

theorem depthAfter_concat (instructions : List (Instruction α)) (last : Instruction α)
    (depth : Nat) :
    depthAfter (instructions ++ [last]) depth = last.depthAfter (depthAfter instructions depth) :=
  depthAfter_append instructions [last] depth

theorem depths_concat (instructions : List (Instruction α)) (last : Instruction α)
    (start : Nat × Nat) :
    depths (instructions ++ [last]) start =
      (last.depthAfter (depths instructions start).1,
        max (depths instructions start).2 (last.depthAfter (depths instructions start).1)) :=
  List.foldl_append

theorem fst_depths (instructions : List (Instruction α)) (start : Nat × Nat) :
    (depths instructions start).1 = depthAfter instructions start.1 := by
  induction instructions using List.reverseRecOn with
  | nil => rfl
  | append_singleton instructions last ih => rw [depths_concat, depthAfter_concat, ih]

theorem depthAfter_emit (formula : Formula α) (depth : Nat) :
    depthAfter (emit formula) depth = depth + 1 := by
  induction formula generalizing depth with
  | number value | sample | param index => rfl
  | neg operand ih | call f operand ih =>
      rw [emit, depthAfter_concat, ih]
      rfl
  | binary op left right ihl ihr =>
      rw [emit, depthAfter_concat, depthAfter_append, ihl, ihr]
      rfl

theorem isGreatest_depths (instructions : List (Instruction α)) :
    IsGreatest {depth | ∃ before, before <+: instructions ∧ depthAfter before 0 = depth}
      (depths instructions (0, 0)).2 := by
  induction instructions using List.reverseRecOn with
  | nil =>
      refine ⟨⟨[], List.prefix_rfl, rfl⟩, ?_⟩
      rintro depth ⟨before, within, rfl⟩
      rw [List.prefix_nil.mp within]
      exact Nat.le_refl _
  | append_singleton instructions last ih =>
      -- One more instruction adds one more depth to those that were reached.
      have reached : {depth | ∃ before, before <+: instructions ++ [last] ∧
          depthAfter before 0 = depth} =
            insert (depthAfter (instructions ++ [last]) 0)
              {depth | ∃ before, before <+: instructions ∧ depthAfter before 0 = depth} := by
        ext depth
        simp only [List.prefix_concat_iff, or_and_right, exists_or, exists_eq_left,
          Set.mem_ofPred_eq, Set.mem_insert_iff, eq_comm]
      rw [reached, depths_concat, max_comm, fst_depths, ← depthAfter_concat]
      exact ih.insert _

/-! ## Operands -/

def FindsOperands : List (Instruction α) → Nat → Prop
  | [], _ => True
  | first :: rest, depth => first.operands ≤ depth ∧ FindsOperands rest (first.depthAfter depth)

theorem findsOperands_append (first second : List (Instruction α)) (depth : Nat) :
    FindsOperands (first ++ second) depth ↔
      FindsOperands first depth ∧ FindsOperands second (depthAfter first depth) := by
  induction first generalizing depth with
  | nil => simp [FindsOperands, depthAfter]
  | cons head rest ih =>
      simp only [List.cons_append, FindsOperands, ih, and_assoc]
      rfl

theorem findsOperands_concat (instructions : List (Instruction α)) (last : Instruction α)
    (depth : Nat) :
    FindsOperands (instructions ++ [last]) depth ↔
      FindsOperands instructions depth ∧ last.operands ≤ depthAfter instructions depth := by
  rw [findsOperands_append, FindsOperands, FindsOperands, and_true]

theorem FindsOperands.of_prefix {before instructions : List (Instruction α)} {depth : Nat}
    (finds : FindsOperands instructions depth) (within : before <+: instructions) :
    FindsOperands before depth := by
  obtain ⟨after, rfl⟩ := within
  exact ((findsOperands_append before after depth).mp finds).1

theorem findsOperands_emit (formula : Formula α) (depth : Nat) :
    FindsOperands (emit formula) depth := by
  -- Whatever lies on the stack before, an operation takes off what its own operands left there.
  induction formula generalizing depth with
  | number value | sample | param index => exact ⟨Nat.zero_le _, trivial⟩
  | neg operand ih | call f operand ih =>
      rw [emit, findsOperands_concat, depthAfter_emit]
      exact ⟨ih depth, Nat.le_add_left 1 depth⟩
  | binary op left right ihl ihr =>
      rw [emit, findsOperands_concat, findsOperands_append, depthAfter_append, depthAfter_emit,
        depthAfter_emit]
      exact ⟨⟨ihl depth, ihr (depth + 1)⟩, Nat.le_add_left 2 depth⟩

/-! ## Runs -/

section Runs

variable [Scalar α] {count : Nat} (samples : Vector α count) (params : List α)

theorem execute_concat (instructions : List (Instruction α)) (last : Instruction α)
    (stack : List (Vector α count)) :
    execute samples params (instructions ++ [last]) stack =
      last.execute samples params (execute samples params instructions stack) :=
  execute_append samples params instructions [last] stack

theorem length_execute (instructions : List (Instruction α)) (stack : List (Vector α count)) :
    (execute samples params instructions stack).length =
      depthAfter instructions stack.length := by
  induction instructions using List.reverseRecOn with
  | nil => rfl
  | append_singleton instructions last ih =>
      rw [execute_concat, Instruction.length_execute, ih, depthAfter_concat]

def execute? (samples params : List α) (instructions : List (Instruction α))
    (stack : List (List α)) : Option (List (List α)) :=
  instructions.foldlM (fun stack instruction => instruction.execute? samples params stack) stack

def run? (program : Program α) (samples params : List α) : Option (List α) :=
  match execute? samples params program.instructions [] with
  | some [column] => some column
  | _ => none

theorem execute?_toList {instructions : List (Instruction α)} (stack : List (Vector α count))
    (finds : FindsOperands instructions stack.length) :
    execute? samples.toList params instructions (stack.map Vector.toList) =
      some ((execute samples params instructions stack).map Vector.toList) := by
  induction instructions using List.reverseRecOn with
  | nil => rfl
  | append_singleton instructions last ih =>
      obtain ⟨finds, found⟩ := (findsOperands_concat _ _ _).mp finds
      rw [← length_execute samples params] at found
      rw [execute?, List.foldlM_append, ← execute?, ih finds, execute_concat]
      simp [Instruction.execute?_toList samples params found]

theorem execute_lower (formula : Formula α) :
    execute samples params (lower formula).instructions [] =
      [(lower formula).run samples params] := by
  rw [run_lower]
  exact execute_emit formula samples params []

theorem run?_lower (formula : Formula α) :
    (lower formula).run? samples.toList params =
      some ((lower formula).run samples params).toList := by
  have ended : execute? samples.toList params (lower formula).instructions [] =
      some ((execute samples params (lower formula).instructions []).map Vector.toList) :=
    execute?_toList samples params [] (findsOperands_emit formula 0)
  rw [run?, ended, execute_lower]
  rfl

end Runs

/-- The stack of a lowered formula is as deep as was counted when it was lowered. No instruction
takes more columns than there are, each leaves one at least, and the last leaves one alone. Run on
any samples, the program never needs what the machine does where a column is missing: a machine that
stops there, or where two columns differ in length, comes to the same stack after every instruction
and to the same column at the end. The greatest length of the stack is the one that was stored. -/
theorem stack_disciplined (α : Type) [Scalar α] (formula : Formula α) :
    (∀ before instruction, before ++ [instruction] <+: (lower formula).instructions →
      instruction.operands ≤ (depths before (0, 0)).1 ∧
      (depths (before ++ [instruction]) (0, 0)).1 + instruction.operands =
        (depths before (0, 0)).1 + 1 ∧
      1 ≤ (depths (before ++ [instruction]) (0, 0)).1) ∧
    (depths (lower formula).instructions (0, 0)).1 = 1 ∧
    ∀ {count : Nat} (samples : Vector α count) (params : List α),
      (∀ before, before <+: (lower formula).instructions →
        (execute samples params before []).length = (depths before (0, 0)).1 ∧
        ∃ columns, execute? samples.toList params before [] = some columns ∧
          columns = (execute samples params before []).map Vector.toList ∧
          ∀ column ∈ columns, column.length = samples.toList.length) ∧
      execute samples params (lower formula).instructions [] =
        [(lower formula).run samples params] ∧
      (lower formula).run? samples.toList params =
        some ((lower formula).run samples params).toList ∧
      IsGreatest {length | ∃ before, before <+: (lower formula).instructions ∧
        (execute samples params before []).length = length} (lower formula).maxStack := by
  have finds := findsOperands_emit formula 0
  refine ⟨fun before instruction within => ?_, ?_, fun samples params =>
    ⟨fun before within => ⟨?_, ?_⟩, execute_lower samples params formula,
      run?_lower samples params formula, ?_⟩⟩
  · obtain ⟨-, found⟩ := (findsOperands_concat _ _ _).mp (finds.of_prefix within)
    simp only [fst_depths, depthAfter_concat]
    exact ⟨found, Instruction.depthAfter_add_operands found, Instruction.one_le_depthAfter found⟩
  · rw [fst_depths]
    exact depthAfter_emit formula 0
  · rw [fst_depths]
    exact length_execute samples params before []
  · refine ⟨_, execute?_toList samples params [] (finds.of_prefix within), rfl, ?_⟩
    simp
  · simp only [length_execute]
    exact isGreatest_depths (emit formula)

/-- What stands on the left waits on the stack for what stands on the right. -/
example : (lower (.binary .sub .sample (.binary .sub .sample .sample) : Formula Float)).maxStack =
    3 := rfl

end Program

end LeastSquares
