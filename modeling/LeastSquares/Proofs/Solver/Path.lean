import LeastSquares.Solver.Minimize

/-!
# Paths of a run

A run of the solver goes from head to head, trying one proposal at each. `Head.attempt_cases` says
once what trying a step can do; `Path` strings together the rounds after which the loop goes on, and
`Head.run_ends` says that every run follows a path and ends there in one of four ways.
-/

namespace LeastSquares

theorem Except.bind_eq_ok {ε β γ : Type} {x : Except ε β} {f : β → Except ε γ} {c : γ} :
    (x >>= f) = .ok c ↔ ∃ b, x = .ok b ∧ f b = .ok c := by
  cases x with
  | error e => simp [bind, Except.bind]
  | ok b => simp [bind, Except.bind]

theorem Except.map_eq_ok {ε β γ : Type} {x : Except ε β} {f : β → γ} {c : γ} :
    x.map f = .ok c ↔ ∃ b, x = .ok b ∧ f b = c := by
  cases x with
  | error e => simp [Except.map]
  | ok b => simp [Except.map]

-- A result with an error that cannot be compared is decided through the option it makes.
theorem Except.ok_of_toOption {ε β γ : Type} {x : Except ε β} {f : β → γ} {c : γ}
    (found : x.toOption.map f = some c) : ∃ b, x = .ok b ∧ f b = c := by
  cases x with
  | error e => cases found
  | ok b => exact ⟨b, rfl, Option.some.inj found⟩

variable {α : Type} [Scalar α] {problem : Problem α} {settings : Settings α}

namespace Head

def proposed (head : Head problem) (step : Vector α problem.parameterCount) :
    Search α problem.parameterCount :=
  head.search.tick.propose step

def Solves (head : Head problem) (step : Vector α problem.parameterCount) : Prop :=
  dampedStep head.linearization.hessian head.linearization.gradient head.search.damping
    (head.search.iterations + 1) = .ok step

theorem attempt_cases {head : Head problem} {trial : Trial problem}
    (tried : head.attempt settings = .ok trial) :
    ∃ step residuals, head.Solves step ∧
      problem.residuals (head.proposed step).params = .ok residuals ∧
      (((head.proposed step).stepLength ≤ settings.stepTolerance ∧
          trial = .finished
            { params := (head.proposed step).params
              residuals
              cost := Problem.halfSquare residuals
              iterations := head.search.iterations + 1
              termination := .stepTolerance }) ∨
        (¬ (head.proposed step).stepLength ≤ settings.stepTolerance ∧
          ((0 : Nat) : α) < head.gain step residuals ∧
          ∃ linearization,
            Linearization.withResiduals problem (head.proposed step).params residuals =
              .ok linearization ∧
            trial = .accepted
              { search := (head.proposed step).accept (head.gain step residuals)
                linearization }) ∨
        (¬ (head.proposed step).stepLength ≤ settings.stepTolerance ∧
          ¬ ((0 : Nat) : α) < head.gain step residuals ∧
          trial = .rejected { head with search := (head.proposed step).reject })) := by
  unfold attempt at tried
  simp only [Except.bind_eq_ok] at tried
  obtain ⟨step, solved, residuals, evaluated, tried⟩ := tried
  refine ⟨step, residuals, solved, evaluated, ?_⟩
  split at tried
  · next short => exact .inl ⟨short, (Except.ok.inj tried).symm⟩
  · next long =>
      split at tried
      · next gained =>
          obtain ⟨linearization, linearized, tried⟩ := Except.bind_eq_ok.mp tried
          exact .inr (.inl ⟨long, gained, linearization, linearized, (Except.ok.inj tried).symm⟩)
      · next lost => exact .inr (.inr ⟨long, lost, (Except.ok.inj tried).symm⟩)

theorem attempt_finished {head : Head problem}
    {outcome : Outcome α problem.residualCount problem.parameterCount}
    (tried : head.attempt settings = .ok (.finished outcome)) :
    problem.residuals outcome.params = .ok outcome.residuals ∧
      outcome.cost = Problem.halfSquare outcome.residuals ∧
      outcome.termination = .stepTolerance := by
  obtain ⟨step, residuals, -, evaluated, ⟨-, same⟩ | ⟨-, -, _, -, impossible⟩ |
    ⟨-, -, impossible⟩⟩ := attempt_cases tried
  · cases same
    exact ⟨evaluated, rfl, rfl⟩
  · cases impossible
  · cases impossible

end Head

/-! ## Proposals and paths -/

structure Proposal (α : Type) (n : Nat) where
  origin : Vector α n
  step : Vector α n
  kept : Bool

namespace Proposal

variable {n : Nat}

def endpoint (proposal : Proposal α n) : Vector α n :=
  Vector.zipWith (· + ·) proposal.origin proposal.step

/-- The end of the last proposal that was kept, and the start if none was. -/
def lastKept (start : Vector α n) (proposals : List (Proposal α n)) : Vector α n :=
  match (proposals.filter (·.kept)).getLast? with
  | none => start
  | some last => last.endpoint

theorem lastKept_cons (start : Vector α n) (proposal : Proposal α n)
    (proposals : List (Proposal α n)) :
    lastKept start (proposal :: proposals) =
      lastKept (if proposal.kept then proposal.endpoint else start) proposals := by
  unfold lastKept
  cases kept : proposal.kept with
  | false => simp [kept]
  | true =>
      simp only [List.filter_cons, kept, if_true, List.getLast?_cons]
      cases (proposals.filter (·.kept)).getLast? <;> rfl

end Proposal

/-- One turn of the loop: nothing stops the run at a head, the step solved for there is tried, and
the run goes on at the next head. -/
inductive Round (settings : Settings α) :
    Head problem → Proposal α problem.parameterCount → Head problem → Prop where
  | accepted {head next : Head problem} {step : Vector α problem.parameterCount}
      (going : head.stop? settings = none) (solved : head.Solves step)
      (tried : head.attempt settings = .ok (.accepted next)) :
      Round settings head ⟨head.search.params, step, true⟩ next
  | rejected {head next : Head problem} {step : Vector α problem.parameterCount}
      (going : head.stop? settings = none) (solved : head.Solves step)
      (tried : head.attempt settings = .ok (.rejected next)) :
      Round settings head ⟨head.search.params, step, false⟩ next

inductive Path (settings : Settings α) :
    Head problem → List (Proposal α problem.parameterCount) → Head problem → Prop where
  | here (head : Head problem) : Path settings head [] head
  | next {head middle last : Head problem} {proposal : Proposal α problem.parameterCount}
      {proposals : List (Proposal α problem.parameterCount)}
      (round : Round settings head proposal middle) (rest : Path settings middle proposals last) :
      Path settings head (proposal :: proposals) last

inductive Exit (settings : Settings α) (head : Head problem) :
    Nat → Outcome α problem.residualCount problem.parameterCount → Prop where
  | stopped {budget : Nat} {reason : Termination} (found : head.stop? settings = some reason) :
      Exit settings head budget (head.outcome reason)
  | capped (going : head.stop? settings = none) :
      Exit settings head 0 (head.outcome .maxIterations)
  | finished {budget : Nat} {outcome : Outcome α problem.residualCount problem.parameterCount}
      (going : head.stop? settings = none)
      (tried : head.attempt settings = .ok (.finished outcome)) :
      Exit settings head (budget + 1) outcome

namespace Round

variable {head next : Head problem} {proposal : Proposal α problem.parameterCount}

theorem inversion (round : Round settings head proposal next) :
    proposal.origin = head.search.params ∧ head.Solves proposal.step ∧
      ∃ residuals, problem.residuals (head.proposed proposal.step).params = .ok residuals ∧
        ((proposal.kept = true ∧ ((0 : Nat) : α) < head.gain proposal.step residuals ∧
            ∃ linearization,
              Linearization.withResiduals problem (head.proposed proposal.step).params residuals =
                .ok linearization ∧
              next =
                { search := (head.proposed proposal.step).accept (head.gain proposal.step residuals)
                  linearization }) ∨
          (proposal.kept = false ∧ ¬ ((0 : Nat) : α) < head.gain proposal.step residuals ∧
            next = { head with search := (head.proposed proposal.step).reject })) := by
  cases round with
  | accepted going solved tried =>
      obtain ⟨step, residuals, solvedToo, evaluated, cases⟩ := Head.attempt_cases tried
      obtain rfl := Except.ok.inj (solved.symm.trans solvedToo)
      obtain ⟨-, impossible⟩ | ⟨-, gained, linearization, linearized, same⟩ |
        ⟨-, -, impossible⟩ := cases
      · cases impossible
      · cases same
        exact ⟨rfl, solved, residuals, evaluated, .inl ⟨rfl, gained, _, linearized, rfl⟩⟩
      · cases impossible
  | rejected going solved tried =>
      obtain ⟨step, residuals, solvedToo, evaluated, cases⟩ := Head.attempt_cases tried
      obtain rfl := Except.ok.inj (solved.symm.trans solvedToo)
      obtain ⟨-, impossible⟩ | ⟨-, -, _, -, impossible⟩ | ⟨-, lost, same⟩ := cases
      · cases impossible
      · cases impossible
      · cases same
        exact ⟨rfl, solved, residuals, evaluated, .inr ⟨rfl, lost, rfl⟩⟩

theorem run_eq (round : Round settings head proposal next) (budget : Nat) :
    head.run settings (budget + 1) = next.run settings budget := by
  cases round with
  | accepted going solved tried => rw [Head.run, going]; simp only [tried]
  | rejected going solved tried => rw [Head.run, going]; simp only [tried]

theorem params_eq (round : Round settings head proposal next) :
    next.search.params = if proposal.kept then proposal.endpoint else head.search.params := by
  obtain ⟨origin, -, residuals, -, ⟨kept, -, _, -, rfl⟩ | ⟨kept, -, rfl⟩⟩ := round.inversion
  · rw [kept, Proposal.endpoint, origin]
    rfl
  · rw [kept]
    rfl

end Round

namespace Path

variable {head last : Head problem} {proposals : List (Proposal α problem.parameterCount)}

theorem run_eq (path : Path settings head proposals last) {budget : Nat}
    (enough : proposals.length ≤ budget) :
    head.run settings budget = last.run settings (budget - proposals.length) := by
  induction path generalizing budget with
  | here head => rfl
  | next round rest ih =>
      obtain ⟨budget, rfl⟩ := Nat.exists_eq_add_of_le' enough
      rw [List.length_cons] at enough ⊢
      rw [← Nat.add_assoc, round.run_eq, ih (by omega)]
      congr 1
      omega

theorem params_eq (path : Path settings head proposals last) :
    last.search.params = Proposal.lastKept head.search.params proposals := by
  induction path with
  | here head => rfl
  | next round rest ih => rw [ih, Proposal.lastKept_cons, round.params_eq]

theorem invariant {P : Head problem → Prop}
    (preserved : ∀ {head proposal next}, P head → Round settings head proposal next → P next)
    (path : Path settings head proposals last) (atHead : P head) : P last := by
  induction path with
  | here head => exact atHead
  | next round rest ih => exact ih (preserved atHead round)

end Path

/-! ## Ends of a run -/

/-- How a run that may still try so many steps ends at a head: how many steps it solves for there,
and its result. -/
inductive Ending (settings : Settings α) (head : Head problem) : Nat → Nat →
    Except (Error α) (Outcome α problem.residualCount problem.parameterCount) → Prop where
  | stopped {budget : Nat} {reason : Termination} (found : head.stop? settings = some reason) :
      Ending settings head budget 0 (.ok (head.outcome reason))
  | capped (going : head.stop? settings = none) :
      Ending settings head 0 0 (.ok (head.outcome .maxIterations))
  | finished {budget : Nat} {outcome : Outcome α problem.residualCount problem.parameterCount}
      (going : head.stop? settings = none)
      (tried : head.attempt settings = .ok (.finished outcome)) :
      Ending settings head (budget + 1) 1 (.ok outcome)
  | failed {budget : Nat} {cause : Error α} (going : head.stop? settings = none)
      (tried : head.attempt settings = .error cause) :
      Ending settings head (budget + 1) 1 (.error cause)

theorem Ending.solves_le {head : Head problem} {budget solves : Nat}
    {result : Except (Error α) (Outcome α problem.residualCount problem.parameterCount)}
    (ending : Ending settings head budget solves result) : solves ≤ budget := by
  cases ending <;> omega

theorem Head.run_ends (settings : Settings α) (budget : Nat) (head : Head problem) :
    ∃ proposals last solves, Path settings head proposals last ∧ proposals.length ≤ budget ∧
      Ending settings last (budget - proposals.length) solves (head.run settings budget) := by
  induction budget generalizing head with
  | zero =>
      rw [run]
      split
      · next reason found => exact ⟨[], head, 0, .here head, Nat.le_refl 0, .stopped found⟩
      · next going => exact ⟨[], head, 0, .here head, Nat.le_refl 0, .capped going⟩
  | succ budget ih =>
      rw [run]
      split
      · next reason found => exact ⟨[], head, 0, .here head, Nat.zero_le _, .stopped found⟩
      · next going =>
          have further {proposal next} (round : Round settings head proposal next) :
              ∃ proposals last solves, Path settings head proposals last ∧
                proposals.length ≤ budget + 1 ∧
                Ending settings last (budget + 1 - proposals.length) solves
                  (next.run settings budget) := by
            obtain ⟨proposals, last, solves, path, within, ending⟩ := ih next
            refine ⟨proposal :: proposals, last, solves, .next round path,
              Nat.succ_le_succ within, ?_⟩
            rwa [List.length_cons, Nat.succ_sub_succ]
          cases tried : head.attempt settings with
          | error cause => exact ⟨[], head, 1, .here head, Nat.zero_le _, .failed going tried⟩
          | ok trial =>
              obtain ⟨step, _, solved, -⟩ := attempt_cases tried
              cases trial with
              | finished outcome =>
                  exact ⟨[], head, 1, .here head, Nat.zero_le _, .finished going tried⟩
              | accepted next => exact further (.accepted going solved tried)
              | rejected next => exact further (.rejected going solved tried)

theorem Ending.exit {head : Head problem} {budget solves : Nat}
    {outcome : Outcome α problem.residualCount problem.parameterCount}
    (ending : Ending settings head budget solves (.ok outcome)) :
    Exit settings head budget outcome := by
  cases ending with
  | stopped found => exact .stopped found
  | capped going => exact .capped going
  | finished going tried => exact .finished going tried

theorem Head.run_ok {head : Head problem} {budget : Nat}
    {outcome : Outcome α problem.residualCount problem.parameterCount}
    (ended : head.run settings budget = .ok outcome) :
    ∃ proposals last, Path settings head proposals last ∧ proposals.length ≤ budget ∧
      Exit settings last (budget - proposals.length) outcome := by
  obtain ⟨proposals, last, solves, path, within, ending⟩ := head.run_ends settings budget
  rw [ended] at ending
  exact ⟨proposals, last, path, within, ending.exit⟩

end LeastSquares
