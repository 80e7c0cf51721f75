import LeastSquares.Scalar

namespace LeastSquares

section Sums

variable {α : Type} [Scalar α]

def joinLanes (lanes : Vector α 8) : α :=
  ((0 : Nat) : α) + (lanes[0] + lanes[4]) + (lanes[1] + lanes[5]) + (lanes[2] + lanes[6]) +
    (lanes[3] + lanes[7])

/-- While there are eight addends, each goes to a partial sum of its own. The fewer than eight at the
end are added one by one to what the partial sums make together. -/
def addLanes (lanes : Vector α 8) : List α → α
  | a :: b :: c :: d :: e :: f :: g :: h :: rest =>
    addLanes (Vector.zipWith (· + ·) lanes #v[a, b, c, d, e, f, g, h]) rest
  | rest => rest.foldl (· + ·) (joinLanes lanes)

variable {n : Nat}

def columnSum (column : Vector α n) : α :=
  addLanes (.replicate 8 ((0 : Nat) : α)) column.toList

/-- The inner product of columns that are stored in one piece. -/
def dot (v w : Vector α n) : α :=
  columnSum (Vector.zipWith (· * ·) v w)

/-- The inner product of lines of a matrix, summed from the first entry on. -/
def lineDot (v w : Vector α n) : α :=
  (Vector.zipWith (· * ·) v w).foldl (· + ·) ((0 : Nat) : α)

end Sums

/-- The largest size of an entry. A not-a-number among the entries makes it not-a-number. -/
def infNorm {α : Type} [Scalar α] {n : Nat} (v : Vector α n) : α :=
  v.foldl
    (fun norm entry =>
      if Scalar.isNaN norm || Scalar.isNaN entry then Scalar.nan
      else Scalar.larger norm (Scalar.abs entry))
    ((0 : Nat) : α)

theorem get_eq_getElem {α : Type} {n : Nat} (v : Vector α n) (i : Fin n) : v.get i = v[i] :=
  rfl

theorem get_zipWith {α β γ : Type} {n : Nat} (f : α → β → γ) (v : Vector α n)
    (w : Vector β n) (i : Fin n) :
    (Vector.zipWith f v w).get i = f (v.get i) (w.get i) := by
  simp only [get_eq_getElem, Fin.getElem_fin, Vector.getElem_zipWith]

theorem forall_mem_toList {α : Type} {n : Nat} {v : Vector α n} {P : α → Prop} :
    (∀ a ∈ v.toList, P a) ↔ ∀ i, P (v.get i) := by
  constructor
  · intro all i
    exact all _ (by simp [get_eq_getElem])
  · intro all a member
    obtain ⟨i, bound, rfl⟩ := List.getElem_of_mem member
    simpa [get_eq_getElem] using all ⟨i, by simpa using bound⟩

def firstIndex (n : Nat) : Fin (n + 1) :=
  ⟨0, Nat.zero_lt_succ n⟩

def first {α : Type} {n : Nat} (v : Vector α (n + 1)) : α :=
  v.get (firstIndex n)

def dropFirst {α : Type} {n : Nat} (v : Vector α (n + 1)) : Vector α n :=
  Vector.ofFn fun i => v.get i.succ

def prepend {α : Type} {n : Nat} (entry : α) (rest : Vector α n) : Vector α (n + 1) :=
  Vector.ofFn (Fin.cases entry rest.get)

theorem first_prepend {α : Type} {n : Nat} (entry : α) (rest : Vector α n) :
    first (prepend entry rest) = entry := by
  simp only [first, prepend, get_eq_getElem, Fin.getElem_fin, Vector.getElem_ofFn]
  rfl

theorem dropFirst_prepend {α : Type} {n : Nat} (entry : α) (rest : Vector α n) :
    dropFirst (prepend entry rest) = rest := by
  apply Vector.ext
  intro i bound
  simp only [dropFirst, prepend, get_eq_getElem, Fin.getElem_fin, Vector.getElem_ofFn]
  rfl

def exchangeFirst {α : Type} {n : Nat} (v : Vector α (n + 1)) (i : Fin (n + 1)) :
    Vector α (n + 1) :=
  Vector.ofFn fun j =>
    if j = firstIndex n then v.get i else if j = i then first v else v.get j

abbrev DenseMatrix (α : Type) (m n : Nat) := Vector (Vector α n) m

namespace DenseMatrix

variable {α : Type} {m n : Nat}

def ofFn (entry : Fin m → Fin n → α) : DenseMatrix α m n :=
  Vector.ofFn fun i => Vector.ofFn (entry i)

def entry (a : DenseMatrix α m n) (i : Fin m) (j : Fin n) : α :=
  (a.get i).get j

theorem entry_ofFn (f : Fin m → Fin n → α) (i : Fin m) (j : Fin n) :
    (ofFn f).entry i j = f i j := by
  simp only [entry, ofFn, get_eq_getElem, Fin.getElem_fin, Vector.getElem_ofFn]

def corner (a : DenseMatrix α (m + 1) (n + 1)) : α :=
  first (first a)

def transpose (a : DenseMatrix α m n) : DenseMatrix α n m :=
  ofFn fun i j => a.entry j i

theorem entry_transpose (a : DenseMatrix α m n) (i : Fin n) (j : Fin m) :
    a.transpose.entry i j = a.entry j i :=
  entry_ofFn _ i j

def diagonal (a : DenseMatrix α n n) : Vector α n :=
  Vector.ofFn fun i => a.entry i i

variable [Scalar α]

def neg (a : DenseMatrix α m n) : DenseMatrix α m n :=
  a.map fun row => row.map (- ·)

def gram (a : DenseMatrix α m n) : DenseMatrix α n n :=
  let columns := a.transpose
  ofFn fun i j => lineDot (columns.get i) (columns.get j)

theorem entry_gram (a : DenseMatrix α m n) (i j : Fin n) :
    a.gram.entry i j = lineDot (a.transpose.get i) (a.transpose.get j) :=
  entry_ofFn _ i j

/-- The inner products of the columns with a vector. Only the column of a matrix that has no other is
stored in one piece. -/
def transposeApply (a : DenseMatrix α m n) (v : Vector α m) : Vector α n :=
  a.transpose.map fun column => if n = 1 then dot column v else lineDot column v

theorem get_transposeApply (a : DenseMatrix α m n) (v : Vector α m) (j : Fin n) :
    (a.transposeApply v).get j =
      if n = 1 then dot (a.transpose.get j) v else lineDot (a.transpose.get j) v := by
  simp only [transposeApply, get_eq_getElem, Fin.getElem_fin, Vector.getElem_map]

def addDiagonal (a : DenseMatrix α n n) (shift : α) : DenseMatrix α n n :=
  ofFn fun i j => if i = j then a.entry i j + shift else a.entry i j

theorem entry_addDiagonal (a : DenseMatrix α n n) (shift : α) (i j : Fin n) :
    (a.addDiagonal shift).entry i j = if i = j then a.entry i j + shift else a.entry i j :=
  entry_ofFn _ i j

end DenseMatrix

end LeastSquares
