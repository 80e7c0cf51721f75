import LeastSquares.Error

namespace LeastSquares

structure Dataset (α : Type) [Scalar α] where
  rows : List (α × α)
  nonempty : rows ≠ []
  finite : ∀ row ∈ rows, Scalar.isFinite row.1 ∧ Scalar.isFinite row.2

namespace Dataset

variable {α : Type} [Scalar α]

def isUsable (row : α × α) : Bool :=
  Scalar.isFinite row.1 && Scalar.isFinite row.2

def ofRows (rows : List (α × α)) : Except (Error α) (Dataset α) :=
  if nonempty : rows = [] then .error .noRows
  else if finite : ∀ row ∈ rows, isUsable row then
    .ok
      { rows
        nonempty
        finite := fun row member => by simpa [isUsable] using finite row member }
  else .error (.nonFiniteRow (rows.findIdx fun row => !isUsable row))

def ofColumns (x y : List α) : Except (Error α) (Dataset α) :=
  if x.length = y.length then ofRows (x.zip y) else .error (.columnLengths x.length y.length)

/-- The dataset of the usable rows: those within both columns and finite in both. -/
def ofRaw (x y : List α) : Except (Error α) (Dataset α) :=
  let usable := (x.zip y).filter isUsable
  if usable = [] then .error .noUsableRows else ofRows usable

variable (data : Dataset α)

def size : Nat :=
  data.rows.length

def x : Vector α data.size :=
  ⟨(data.rows.map Prod.fst).toArray, by simp [size]⟩

def y : Vector α data.size :=
  ⟨(data.rows.map Prod.snd).toArray, by simp [size]⟩

def range : α × α :=
  match data.rows with
  | [] => (Scalar.nan, Scalar.nan)
  | first :: others =>
    (others.foldl (fun low row => Scalar.smaller low row.1) first.1,
      others.foldl (fun high row => Scalar.larger high row.1) first.1)

end Dataset

end LeastSquares
