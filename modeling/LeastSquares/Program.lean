import LeastSquares.Formula.Basic

namespace LeastSquares

inductive Instruction (α : Type) where
  | constant (value : α)
  | loadSample
  | loadParam (index : Nat)
  | neg
  | binary (op : Operator)
  | call (f : Elementary)

namespace Instruction

variable {α : Type}

def depthAfter : Instruction α → Nat → Nat
  | constant _, depth | loadSample, depth | loadParam _, depth => depth + 1
  | binary _, depth => depth - 1
  | neg, depth | call _, depth => depth

/-- The stack after an instruction. An instruction that misses an operand leaves what there is. -/
def execute [Scalar α] {count : Nat} (samples : Vector α count) (params : List α) :
    Instruction α → List (Vector α count) → List (Vector α count)
  | constant value, stack => Vector.replicate count value :: stack
  | loadSample, stack => samples :: stack
  | loadParam index, stack => Vector.replicate count (params[index]?.getD Scalar.nan) :: stack
  | neg, top :: stack => top.map (- ·) :: stack
  | call f, top :: stack => top.map f.apply :: stack
  | binary op, right :: left :: stack => Vector.zipWith op.apply left right :: stack
  | binary _, _ => []
  | _, [] => []

end Instruction

/-- A formula in postfix order, with the greatest number of columns on the stack at a time. -/
structure Program (α : Type) where
  instructions : List (Instruction α)
  maxStack : Nat

namespace Program

variable {α : Type}

def emit : Formula α → List (Instruction α)
  | .number value => [.constant value]
  | .sample => [.loadSample]
  | .param index => [.loadParam index]
  | .neg operand => emit operand ++ [.neg]
  | .binary op left right => emit left ++ emit right ++ [.binary op]
  | .call f argument => emit argument ++ [.call f]

/-- The depth of the stack after some instructions and the greatest depth up to there. -/
def depths (instructions : List (Instruction α)) (start : Nat × Nat) : Nat × Nat :=
  instructions.foldl
    (fun (depth, deepest) instruction =>
      (instruction.depthAfter depth, max deepest (instruction.depthAfter depth)))
    start

def lower (formula : Formula α) : Program α where
  instructions := emit formula
  maxStack := (depths (emit formula) (0, 0)).2

def execute [Scalar α] {count : Nat} (samples : Vector α count) (params : List α)
    (instructions : List (Instruction α)) (stack : List (Vector α count)) :
    List (Vector α count) :=
  instructions.foldl (fun stack instruction => instruction.execute samples params stack) stack

theorem execute_append [Scalar α] {count : Nat} (samples : Vector α count) (params : List α)
    (first second : List (Instruction α)) (stack : List (Vector α count)) :
    execute samples params (first ++ second) stack =
      execute samples params second (execute samples params first stack) :=
  List.foldl_append

def run [Scalar α] {count : Nat} (program : Program α) (samples : Vector α count)
    (params : List α) : Vector α count :=
  (execute samples params program.instructions []).head?.getD (Vector.replicate count Scalar.nan)

end Program

end LeastSquares
