import LeastSquares.Model

namespace LeastSquares

inductive Family where
  | boltzmann | exponentialDecay | gaussian | hill | doseResponse | michaelisMenten | modifiedSine
  deriving DecidableEq

namespace Family

def all : List Family :=
  [boltzmann, exponentialDecay, gaussian, hill, doseResponse, michaelisMenten, modifiedSine]

def name : Family → String
  | boltzmann => "boltzmann"
  | exponentialDecay => "expdecay"
  | gaussian => "gaussian"
  | hill => "hill"
  | doseResponse => "ic50"
  | michaelisMenten => "mm"
  | modifiedSine => "modsin"

def label : Family → String
  | boltzmann => "Boltzmann sigmoid"
  | exponentialDecay => "Exponential Decay"
  | gaussian => "Gaussian function"
  | hill => "Hill plot"
  | doseResponse => "Dose Response (ic50)"
  | michaelisMenten => "Michaelis-Menten"
  | modifiedSine => "Modified sine wave"

def formulaText : Family → String
  | boltzmann => "var0 + ((var1 - var0)/(1 + exp((var2 - x)/var3)))"
  | exponentialDecay => "var0 + var1 * exp(-var2 * x)"
  | gaussian => "var0 + var1 * exp(-(x - var2)^2 / var3^2)"
  | hill => "var0 / (1 + (var1 / x)^var2)"
  | doseResponse => "1 - (var0 / (1 + (var1 / x)^var2))"
  | michaelisMenten => "(var0 * x) / (var1 + x)"
  | modifiedSine => "var0 * sin(pi * (x - var1) / var2)"

def arity : Family → Nat
  | boltzmann | gaussian => 4
  | exponentialDecay | hill | doseResponse | modifiedSine => 3
  | michaelisMenten => 2

def prefersLogScale : Family → Bool
  | hill | doseResponse => true
  | _ => false

def ofName? (name : List Char) : Option Family :=
  all.find? fun family => family.name.toList = name

/-- The family that a text names, up to case and surrounding white space. -/
def parse {α : Type} (text : String) : Except (Error α) Family :=
  match ofName? ((Text.trim text.toList).map Char.toLower) with
  | some family => .ok family
  | none => .error (.unknownFamily text)

def compile {α : Type} [Scalar α] (family : Family) : Except (Error α) (Model α) :=
  Model.compile family.formulaText

end Family

end LeastSquares
