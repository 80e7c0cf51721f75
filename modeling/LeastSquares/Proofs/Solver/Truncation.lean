import LeastSquares.Proofs.Solver.Stopping

/-!
# Limits cut runs short

Nothing in the loop reads the limit but the last test at a head. So one minimization under two limits
goes from head to head in the same way, and whatever ends the run with the lower limit before it
comes to that limit ends the other run too.
-/

namespace LeastSquares

variable {α : Type} [Scalar α] {problem : Problem α} {settings : Settings α}

theorem Round.deterministic {head next other : Head problem}
    {proposal otherProposal : Proposal α problem.parameterCount}
    (round : Round settings head proposal next)
    (otherRound : Round settings head otherProposal other) :
    proposal = otherProposal ∧ next = other := by
  cases round with
  | accepted going solved tried =>
      cases otherRound with
      | accepted _ otherSolved otherTried =>
          cases solved.symm.trans otherSolved
          cases tried.symm.trans otherTried
          exact ⟨rfl, rfl⟩
      | rejected _ _ otherTried => cases tried.symm.trans otherTried
  | rejected going solved tried =>
      cases otherRound with
      | accepted _ _ otherTried => cases tried.symm.trans otherTried
      | rejected _ otherSolved otherTried =>
          cases solved.symm.trans otherSolved
          cases tried.symm.trans otherTried
          exact ⟨rfl, rfl⟩

theorem Path.deterministic {head last other : Head problem}
    {proposals otherProposals : List (Proposal α problem.parameterCount)}
    (path : Path settings head proposals last)
    (otherPath : Path settings head otherProposals other)
    (equallyLong : proposals.length = otherProposals.length) :
    proposals = otherProposals ∧ last = other := by
  induction path generalizing otherProposals with
  | here head =>
      cases otherPath with
      | here => exact ⟨rfl, rfl⟩
      | next _ _ => cases equallyLong
  | next round rest ih =>
      cases otherPath with
      | here => cases equallyLong
      | next otherRound otherRest =>
          obtain ⟨rfl, rfl⟩ := round.deterministic otherRound
          obtain ⟨rfl, rfl⟩ := ih otherRest (Nat.succ.inj equallyLong)
          exact ⟨rfl, rfl⟩

theorem Visits.deterministic {initial : List α} {head other : Head problem}
    {proposals otherProposals : List (Proposal α problem.parameterCount)}
    (visits : Visits problem settings initial proposals head)
    (otherVisits : Visits problem settings initial otherProposals other)
    (equallyLong : proposals.length = otherProposals.length) :
    proposals = otherProposals ∧ head = other := by
  obtain ⟨start, first, rfl, found, path, -⟩ := visits
  obtain ⟨otherStart, otherFirst, spelt, otherFound, otherPath, -⟩ := otherVisits
  obtain rfl := Vector.toList_inj.mp spelt
  cases found.symm.trans otherFound
  exact path.deterministic otherPath equallyLong

theorem Path.withLimit {head last : Head problem}
    {proposals : List (Proposal α problem.parameterCount)}
    (path : Path settings head proposals last) (limit : Nat) :
    Path { settings with maxIterations := limit } head proposals last := by
  induction path with
  | here head => exact .here head
  | next round rest ih =>
      refine .next ?_ ih
      cases round with
      | accepted going solved tried => exact .accepted going solved tried
      | rejected going solved tried => exact .rejected going solved tried

theorem Visits.withLimit {initial : List α} {proposals : List (Proposal α problem.parameterCount)}
    {head : Head problem} (visits : Visits problem settings initial proposals head) {limit : Nat}
    (enough : settings.maxIterations ≤ limit) :
    Visits problem { settings with maxIterations := limit } initial proposals head := by
  obtain ⟨start, first, spelt, found, path, within⟩ := visits
  exact ⟨start, first, spelt, found, path.withLimit limit, within.trans enough⟩

theorem Ending.withLimit {head : Head problem} {budget solves : Nat}
    {result : Except (Error α) (Outcome α problem.residualCount problem.parameterCount)}
    (ending : Ending settings head budget solves result) (limit : Nat) :
    Ending { settings with maxIterations := limit } head budget solves result := by
  cases ending with
  | stopped found => exact .stopped found
  | capped going => exact .capped going
  | finished going tried => exact .finished going tried
  | failed going tried => exact .failed going tried

theorem Ending.run_eq {head : Head problem} {budget solves : Nat}
    {result : Except (Error α) (Outcome α problem.residualCount problem.parameterCount)}
    (ending : Ending settings head budget solves result)
    (uncapped : ∀ outcome, result = .ok outcome → outcome.termination ≠ .maxIterations)
    {larger : Nat} (enough : budget ≤ larger) : head.run settings larger = result := by
  cases ending with
  | stopped found => exact Head.run_stopped found larger
  | capped going => exact absurd rfl (uncapped _ rfl)
  | finished going tried =>
      obtain ⟨larger, rfl⟩ := Nat.exists_eq_add_of_le' enough
      rw [← Nat.add_assoc, Head.run, going]
      simp only [tried]
  | failed going tried =>
      obtain ⟨larger, rfl⟩ := Nat.exists_eq_add_of_le' enough
      rw [← Nat.add_assoc, Head.run, going]
      simp only [tried]

theorem minimize_failed {start : Vector α problem.parameterCount} {cause : Error α}
    (failed : Head.initial problem settings.initialDampingScale start = .error cause) :
    minimize problem settings start.toList = .error cause := by
  have same : (⟨start.toList.toArray, by simp⟩ : Vector α problem.parameterCount) = start := rfl
  rw [minimize, dif_pos (by simp), same, failed]

/-- A higher limit changes nothing unless the lower one ended the run, and then the outcome holds the
head that the run with the higher limit comes to, and goes on from, after so many steps. -/
theorem minimize_truncates (problem : Problem α) (settings : Settings α) (initial : List α)
    {fewer more : Nat} (fits : fewer ≤ more) :
    ((∀ outcome, minimize problem { settings with maxIterations := fewer } initial = .ok outcome →
        outcome.termination ≠ .maxIterations) →
      minimize problem { settings with maxIterations := more } initial =
        minimize problem { settings with maxIterations := fewer } initial) ∧
    ∀ outcome, minimize problem { settings with maxIterations := fewer } initial = .ok outcome →
      outcome.termination = .maxIterations →
        ∃ proposals head,
          Visits problem { settings with maxIterations := more } initial proposals head ∧
          head.search.iterations = fewer ∧
          outcome.params = head.search.params ∧
          outcome.residuals = head.linearization.residuals ∧
          outcome.cost = head.linearization.cost ∧
          minimize problem { settings with maxIterations := more } initial =
            head.run { settings with maxIterations := more } (more - fewer) ∧
          ∀ otherProposals other,
            Visits problem { settings with maxIterations := more } initial otherProposals other →
              other.search.iterations = fewer → other = head := by
  constructor
  · intro uncapped
    by_cases sized : initial.length = problem.parameterCount
    · rcases @minimize_ends α _ problem { settings with maxIterations := fewer } initial sized with
        ⟨start, cause, rfl, failed, ended⟩ | ⟨proposals, last, solves, visits, ending⟩
      · rw [ended]
        exact minimize_failed failed
      · rw [(visits.withLimit fits).minimize_eq]
        refine (ending.withLimit more).run_eq uncapped ?_
        exact Nat.sub_le_sub_right fits _
    · rw [minimize_refused sized, minimize_refused sized]
  · intro outcome ended reason
    obtain ⟨proposals, head, visits, left⟩ := minimize_ok ended
    have tried : proposals.length = fewer :=
      Nat.le_antisymm visits.length_le (Nat.sub_eq_zero_iff_le.mp (left.capped_of reason).2)
    have same := left.eq_outcome (by rw [reason]; decide)
    have visits := visits.withLimit fits
    refine ⟨proposals, head, visits, visits.iterations.trans tried, ?_, ?_, ?_, ?_, ?_⟩
    · rw [same]
      rfl
    · rw [same]
      rfl
    · rw [same]
      rfl
    · rw [visits.minimize_eq, tried]
    · intro otherProposals other otherVisits iterations
      rw [otherVisits.iterations] at iterations
      exact (otherVisits.deterministic visits (iterations.trans tried.symm)).2

/-- With machine numbers a run that needs five steps ends alike under the limits nine and twenty, a
singular first step is the same error under the limits one and five, and the limit two cuts the run
short. -/
theorem minimize_truncates_line :
    let line : Problem Float := .linear #v[#v[-1.0]] #v[0.0]
    let settings : Settings Float := .standard
    let singular : Settings Float := { settings with initialDampingScale := -1.0 }
    (∃ outcome, minimize line { settings with maxIterations := 9 } [1.0] = .ok outcome ∧
      outcome.termination = .gradientTolerance ∧ outcome.iterations = 5 ∧
      minimize line { settings with maxIterations := 20 } [1.0] = .ok outcome) ∧
    (∃ cause, minimize line { singular with maxIterations := 1 } [1.0] = .error cause ∧
      minimize line { singular with maxIterations := 5 } [1.0] = .error cause) ∧
    ∃ outcome proposals head,
      minimize line { settings with maxIterations := 2 } [1.0] = .ok outcome ∧
      outcome.termination = .maxIterations ∧
      Visits line { settings with maxIterations := 9 } [1.0] proposals head ∧
      head.search.iterations = 2 ∧ outcome.params = head.search.params ∧
      outcome.residuals = head.linearization.residuals ∧
      outcome.cost = head.linearization.cost := by
  intro line settings singular
  refine ⟨?_, ?_, ?_⟩
  · have found : (minimize line { settings with maxIterations := 9 } [1.0]).toOption.map
        (fun outcome => (outcome.termination, outcome.iterations)) =
          some (.gradientTolerance, 5) := by
      decide +kernel
    obtain ⟨outcome, ended, same⟩ := Except.ok_of_toOption found
    obtain ⟨reason, iterations⟩ := Prod.mk.inj same
    have unchanged := (minimize_truncates line settings [1.0] (show 9 ≤ 20 by decide)).1
    refine ⟨outcome, ended, reason, iterations, ?_⟩
    rw [unchanged, ended]
    intro other endedToo capped
    cases ended.symm.trans endedToo
    cases reason.symm.trans capped
  · have unchanged := (minimize_truncates line singular [1.0] (show 1 ≤ 5 by decide)).1
    have failed : (minimize line { singular with maxIterations := 1 } [1.0]).toOption.isNone := by
      decide +kernel
    cases ended : minimize line { singular with maxIterations := 1 } [1.0] with
    | ok outcome =>
        rw [ended] at failed
        cases failed
    | error cause =>
        refine ⟨cause, rfl, ?_⟩
        rw [unchanged, ended]
        intro outcome impossible
        rw [ended] at impossible
        cases impossible
  · have found : (minimize line { settings with maxIterations := 2 } [1.0]).toOption.map
        (·.termination) = some .maxIterations := by
      decide +kernel
    obtain ⟨outcome, ended, reason⟩ := Except.ok_of_toOption found
    obtain ⟨proposals, head, visits, iterations, params, residuals, cost, -⟩ :=
      (minimize_truncates line settings [1.0] (show 2 ≤ 9 by decide)).2 outcome ended reason
    exact ⟨outcome, proposals, head, ended, reason, visits, iterations, params, residuals, cost⟩

end LeastSquares
