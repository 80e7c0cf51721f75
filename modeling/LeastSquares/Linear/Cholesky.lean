import LeastSquares.Linear.Dense

namespace LeastSquares

/-- A lower triangular matrix by columns: the diagonal entry, the entries below it, and the
triangle that begins in the next column. -/
inductive Triangular (α : Type) : Nat → Type where
  | nil : Triangular α 0
  | cons {n : Nat} (pivot : α) (below : Vector α n) (inner : Triangular α n) : Triangular α (n + 1)

namespace Triangular

variable {α : Type} [Scalar α]

/-- The lower triangular factor of a matrix. There is none unless every pivot is positive. -/
def factor? : {n : Nat} → DenseMatrix α n n → Option (Triangular α n)
  | 0, _ => some nil
  | _ + 1, a =>
    let corner := a.corner
    if ((0 : Nat) : α) < corner then
      let pivot := Scalar.sqrt corner
      let below := (dropFirst a).map fun row => first row / pivot
      (factor? (DenseMatrix.ofFn fun i j => a.entry i.succ j.succ - below.get i * below.get j)).map
        (cons pivot below)
    else none

/-- The solution of `l * y = b` for the triangle `l`, from the first entry on. -/
def solve : {n : Nat} → Triangular α n → Vector α n → Vector α n
  | 0, _, b => b
  | _ + 1, cons pivot below inner, b =>
    let y := first b / pivot
    prepend y (inner.solve (Vector.zipWith (fun right l => right - y * l) (dropFirst b) below))

/-- The solution of `lᵀ * x = y` for the triangle `l`, from the last entry back. -/
def solveTransposed : {n : Nat} → Triangular α n → Vector α n → Vector α n
  | 0, _, y => y
  | _ + 1, cons pivot below inner, y =>
    let rest := inner.solveTransposed (dropFirst y)
    prepend ((first y - dot below rest) / pivot) rest

end Triangular

end LeastSquares
