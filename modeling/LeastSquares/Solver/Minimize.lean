import LeastSquares.Solver.Damping
import LeastSquares.Solver.Linearization
import LeastSquares.Solver.Outcome
import LeastSquares.Solver.Settings
import LeastSquares.Solver.Step

/-!
# Damped least squares

A run goes from one head to the next: at a head the linearization belongs to the parameters, the
stopping tests are made, and if none applies one step is tried. The step is kept if its gain ratio
is positive and taken back otherwise, so a step to values that are not numbers is never kept. A run
tries at most `maxIterations` steps.
-/

namespace LeastSquares

variable {α : Type} [Scalar α]

/-- A place where the stopping tests are made: a search and the linearization at its parameters. -/
structure Head (problem : Problem α) where
  search : Search α problem.parameterCount
  linearization : Linearization α problem.residualCount problem.parameterCount

inductive Trial (problem : Problem α) where
  | finished (outcome : Outcome α problem.residualCount problem.parameterCount)
  | accepted (next : Head problem)
  | rejected (next : Head problem)

namespace Head

variable {problem : Problem α}

def initial (problem : Problem α) (scale : α) (params : Vector α problem.parameterCount) :
    Except (Error α) (Head problem) :=
  (Linearization.of problem params).map fun linearization =>
    { search := .start params (initialDamping linearization.hessian scale)
      linearization }

def stop? (head : Head problem) (settings : Settings α) : Option Termination :=
  let norm := head.linearization.gradientNorm
  if Scalar.isNaN norm then some .nonFiniteGradient
  else if norm < settings.gradientTolerance then some .gradientTolerance
  else none

def outcome (head : Head problem) (termination : Termination) :
    Outcome α problem.residualCount problem.parameterCount where
  params := head.search.params
  residuals := head.linearization.residuals
  cost := head.linearization.cost
  iterations := head.search.iterations
  termination

def gain (head : Head problem) (step : Vector α problem.parameterCount)
    (residuals : Vector α problem.residualCount) : α :=
  gainRatio
    ((head.linearization.sumOfSquares - dot residuals residuals) / ((2 : Nat) : α))
    (predictedReduction step head.linearization.gradient head.search.damping)

def attempt (head : Head problem) (settings : Settings α) : Except (Error α) (Trial problem) := do
  let search := head.search.tick
  let step ← dampedStep head.linearization.hessian head.linearization.gradient search.damping
    search.iterations
  let moved := search.propose step
  let residuals ← problem.residuals moved.params
  if moved.stepLength ≤ settings.stepTolerance then
    return .finished
      { params := moved.params
        residuals
        cost := Problem.halfSquare residuals
        iterations := moved.iterations
        termination := .stepTolerance }
  else
    let gain := head.gain step residuals
    if ((0 : Nat) : α) < gain then
      let linearization ← Linearization.withResiduals problem moved.params residuals
      return .accepted { search := moved.accept gain, linearization }
    else return .rejected { head with search := moved.reject }

/-- The rest of a run that may still try so many steps. -/
def run (settings : Settings α) :
    Nat → Head problem → Except (Error α) (Outcome α problem.residualCount problem.parameterCount)
  | budget, head =>
    match head.stop? settings with
    | some termination => .ok (head.outcome termination)
    | none =>
      match budget with
      | 0 => .ok (head.outcome .maxIterations)
      | budget + 1 =>
        match head.attempt settings with
        | .error error => .error error
        | .ok (.finished outcome) => .ok outcome
        | .ok (.accepted next) | .ok (.rejected next) => run settings budget next

end Head

def minimize (problem : Problem α) (settings : Settings α) (initial : List α) :
    Except (Error α) (Outcome α problem.residualCount problem.parameterCount) :=
  if fits : initial.length = problem.parameterCount then
    match Head.initial problem settings.initialDampingScale
        ⟨initial.toArray, by simpa using fits⟩ with
    | .error error => .error error
    | .ok head => head.run settings settings.maxIterations
  else .error (.parameterCount problem.parameterCount initial.length)

end LeastSquares
