import LeastSquares.Family
import LeastSquares.Json.Writer
import LeastSquares.Solver.Minimize

namespace LeastSquares

structure FitReport (α : Type) where
  iterations : Nat
  params : List α
  termination : Termination
  cost : α
  rSquared : Option α

namespace FitReport

def toJson {α : Type} [ToDecimal α] (report : FitReport α) : String :=
  Json.objectText
    [("iterations", toString report.iterations),
      ("params", Json.listText (report.params.map Json.numberText)),
      ("termination", Json.quotedText report.termination.name),
      ("cost", Json.numberText report.cost),
      ("r_squared", Json.optionalText (report.rSquared.map Json.numberText))]

end FitReport

variable {α : Type} [Scalar α]

/-- One minus the sum of the squared residuals relative to the squared deviations of the
observations from their mean. There is none if the deviations add up to zero. -/
def rSquared {n : Nat} (observed residuals : Vector α n) : Option α :=
  let mean := columnSum observed / (n : α)
  let spread := Scalar.sum (observed.map fun value => (value - mean) * (value - mean)).toList
  if spread == ((0 : Nat) : α) then none
  else some (((1 : Nat) : α) - dot residuals residuals / spread)

namespace Model

def reportOf (model : Model α) (data : Dataset α) (outcome : Outcome α data.size model.arity) :
    FitReport α where
  iterations := outcome.iterations
  params := outcome.params.toList
  termination := outcome.termination
  cost := outcome.cost
  rSquared := rSquared data.y outcome.residuals

def fit (model : Model α) (settings : Settings α) (data : Dataset α) (initial : List α) :
    Except (Error α) (FitReport α) :=
  if initial.length = model.arity then
    (minimize (.ofModel model data) settings initial).map (model.reportOf data)
  else .error (.initialCount model.arity initial.length)

end Model

inductive AxisScale where
  | linear
  | logarithmic
  deriving DecidableEq

namespace AxisScale

def standard : AxisScale := linear

def evenly (low high : α) (points : Nat) : Vector α points :=
  let step := (high - low) / ((points - 1 : Nat) : α)
  Vector.ofFn fun i => low + step * ((i.val : Nat) : α)

def spaced (scale : AxisScale) (low high : α) (points : Nat) :
    Except (Error α) (Vector α points) :=
  match scale with
  | linear => .ok (evenly low high points)
  | logarithmic =>
    if low ≤ ((0 : Nat) : α) then .error (.logarithmicRange low)
    else
      .ok <| (evenly (Scalar.log10 low) (Scalar.log10 high) points).map
        (Scalar.pow ((10 : Nat) : α) ·)

end AxisScale

namespace Model

def sampleCurve (model : Model α) (params : List α) (data : Dataset α) (points : Nat)
    (scale : AxisScale) : Except (Error α) (Vector α points × Vector α points) :=
  if points < 2 then .error (.tooFewPoints points)
  else do
    let (low, high) := data.range
    let x ← scale.spaced low high points
    let y ← model.eval x params
    return (x, y)

end Model

structure FitRequest (α : Type) [Scalar α] where
  source : String
  data : Dataset α
  initial : List α

def fitAll (settings : Settings α) (requests : List (FitRequest α)) :
    List (Except (Error α) (FitReport α)) :=
  requests.map fun request => do
    let model ← Model.compile request.source
    model.fit settings request.data request.initial

end LeastSquares
