import LeastSquares.Linear.Cholesky

namespace LeastSquares

namespace DenseMatrix

variable {α : Type} [Scalar α] {n : Nat}

def pivotRow (a : DenseMatrix α (n + 1) (n + 1)) : Fin (n + 1) :=
  (List.finRange (n + 1)).foldl
    (fun best i =>
      if Scalar.abs (first (a.get best)) < Scalar.abs (first (a.get i)) then i else best)
    (firstIndex n)

def eliminate? : {n : Nat} → DenseMatrix α n n → Vector α n → Option (Vector α n)
  | 0, _, b => some b
  | n + 1, a, b =>
    let top := a.pivotRow
    let rows := exchangeFirst a top
    let right := exchangeFirst b top
    let pivot := corner rows
    if pivot == ((0 : Nat) : α) then none
    else
      let factors := (dropFirst rows).map fun row => first row * (((1 : Nat) : α) / pivot)
      let inner : DenseMatrix α n n :=
        ofFn fun i j => entry rows i.succ j.succ - (first rows).get j.succ * factors.get i
      let below :=
        Vector.zipWith (fun b factor => b - first right * factor) (dropFirst right) factors
      match eliminate? inner below with
      | none => none
      | some rest =>
        let remaining :=
          (Vector.zipWith (· * ·) (dropFirst (first rows)) rest).foldr
            (fun term left => left - term) (first right)
        some (prepend (remaining / pivot) rest)

/-- The solution of `a * x = b` for a symmetric matrix: by its Cholesky factor if it has one, or
else by elimination. -/
def solveSymmetric? (a : DenseMatrix α n n) (b : Vector α n) : Option (Vector α n) :=
  match Triangular.factor? a with
  | some triangle => some (triangle.solveTransposed (triangle.solve b))
  | none => a.eliminate? b

end DenseMatrix

end LeastSquares
