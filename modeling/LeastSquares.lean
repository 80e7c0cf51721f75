import LeastSquares.Scalar
import LeastSquares.Decimal.Basic
import LeastSquares.Decimal.Binary
import LeastSquares.Decimal.Layout
import LeastSquares.Text.Basic
import LeastSquares.Text.WhiteSpace
import LeastSquares.Formula.Basic
import LeastSquares.Formula.Symbol
import LeastSquares.Formula.Lexer
import LeastSquares.Formula.Parser
import LeastSquares.Formula.Read
import LeastSquares.Formula.Printer
import LeastSquares.Formula.Derivative
import LeastSquares.Program
import LeastSquares.Error
import LeastSquares.Model
import LeastSquares.Family
import LeastSquares.Dataset
import LeastSquares.Problem
import LeastSquares.Linear.Dense
import LeastSquares.Linear.Cholesky
import LeastSquares.Linear.Elimination
import LeastSquares.Solver.Settings
import LeastSquares.Solver.Linearization
import LeastSquares.Solver.Damping
import LeastSquares.Solver.Step
import LeastSquares.Solver.Outcome
import LeastSquares.Solver.Minimize
import LeastSquares.Json.Writer
import LeastSquares.Json.Scanner
import LeastSquares.Json.Number
import LeastSquares.Json.Settings
import LeastSquares.Json.Family
import LeastSquares.Fit
import LeastSquares.Version
import LeastSquares.Proofs.RealLine
import LeastSquares.Proofs.MachineNumbers
import LeastSquares.Proofs.Formula.Dependence
import LeastSquares.Proofs.Formula.Folding
import LeastSquares.Proofs.Formula.Differentiation
import LeastSquares.Proofs.Formula.Grammar
import LeastSquares.Proofs.Formula.Scanning
import LeastSquares.Proofs.Formula.Numerals
import LeastSquares.Proofs.Formula.Recognition
import LeastSquares.Proofs.Linear.Accumulation
import LeastSquares.Proofs.Linear.Solutions
import LeastSquares.Proofs.Linear.Definiteness
import LeastSquares.Proofs.Model.Columns
import LeastSquares.Proofs.Model.Gradients
import LeastSquares.Proofs.Solver.Freshness
import LeastSquares.Proofs.Solver.Stopping
import LeastSquares.Proofs.Solver.Truncation
import LeastSquares.Proofs.Solver.Exits
import LeastSquares.Proofs.Solver.Decisions
import LeastSquares.Proofs.Solver.KeptNumbers
import LeastSquares.Proofs.Solver.PositiveDamping
import LeastSquares.Proofs.Solver.Descent
import LeastSquares.Proofs.Solver.LinearProblems
import LeastSquares.Proofs.Solver.Solvability
import LeastSquares.Proofs.Solver.UnitGain
import LeastSquares.Proofs.Formula.Shapes
import LeastSquares.Proofs.Formula.Growth
import LeastSquares.Proofs.Model.Compilation
import LeastSquares.Proofs.Formula.MachineLiterals
import LeastSquares.Proofs.Formula.Refusal
import LeastSquares.Proofs.Formula.RoundTrip
import LeastSquares.Proofs.Solver.ExactData
import LeastSquares.Proofs.Linear.Regularity
import LeastSquares.Proofs.Solver.ExactSteps
import LeastSquares.Proofs.Formula.PrintedNesting
import LeastSquares.Proofs.Solver.Reordering
import LeastSquares.Proofs.Model.RowOrder
import LeastSquares.Proofs.Solver.Rejections
import LeastSquares.Proofs.Formula.Smoothness
import LeastSquares.Proofs.Formula.RepeatedDerivatives
import LeastSquares.Proofs.Formula.Independence
import LeastSquares.Proofs.Formula.SignedPrinting
import LeastSquares.Proofs.Formula.PrintedDerivatives
import LeastSquares.Proofs.Solver.Schedule
import LeastSquares.Proofs.Data.Rows
import LeastSquares.Proofs.Data.Curves
import LeastSquares.Proofs.Formula.Positions
import LeastSquares.Proofs.MachineRounding
import LeastSquares.Proofs.MachineArithmetic
import LeastSquares.Proofs.Data.Determination
import LeastSquares.Proofs.Model.Stacks
import LeastSquares.Proofs.Formula.Recursion
