import LeastSquares.Linear.Dense

namespace LeastSquares

/-- The damping to start from: a multiple of the largest diagonal entry of the normal matrix.
Entries that are not numbers are passed over. -/
def initialDamping {α : Type} [Scalar α] {n : Nat} (hessian : DenseMatrix α n n) (scale : α) : α :=
  match hessian.diagonal.toList.filter (!Scalar.isNaN ·) with
  | [] => scale * -Scalar.infinity
  | first :: others => scale * others.foldl Scalar.larger first

def gainRatio {α : Type} [Scalar α] (actual predicted : α) : α :=
  actual / predicted

def shrinkFactor {α : Type} [Scalar α] (gain : α) : α :=
  let excess := ((2 : Nat) : α) * gain - ((1 : Nat) : α)
  Scalar.larger (((1 : Nat) : α) / ((3 : Nat) : α)) (((1 : Nat) : α) - excess * excess * excess)

structure Search (α : Type) (n : Nat) where
  params : Vector α n
  previous : Vector α n
  damping : α
  /-- The factor by which the next rejection multiplies the damping. -/
  growth : α
  iterations : Nat

namespace Search

variable {α : Type} [Scalar α] {n : Nat}

def start (params : Vector α n) (damping : α) : Search α n where
  params
  previous := params
  damping
  growth := ((2 : Nat) : α)
  iterations := 0

def propose (search : Search α n) (step : Vector α n) : Search α n :=
  { search with
    params := Vector.zipWith (· + ·) search.params step
    previous := search.params }

def stepLength (search : Search α n) : α :=
  Scalar.sqrt <| Scalar.sum <|
    (Vector.zipWith (fun new old => (new - old) * (new - old)) search.params search.previous).toList

def accept (search : Search α n) (gain : α) : Search α n :=
  { search with
    damping := search.damping * shrinkFactor gain
    growth := ((2 : Nat) : α) }

def reject (search : Search α n) : Search α n :=
  { search with
    params := search.previous
    damping := search.damping * search.growth
    growth := search.growth * ((2 : Nat) : α) }

def tick (search : Search α n) : Search α n :=
  { search with iterations := search.iterations + 1 }

end Search

end LeastSquares
