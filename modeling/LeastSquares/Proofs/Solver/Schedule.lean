import Mathlib.Data.List.DropRight
import Mathlib.Data.Sign.Basic
import LeastSquares.Proofs.Solver.UnitGain

namespace LeastSquares

inductive Turn (α : Type) (n : Nat) where
  | kept (step : Vector α n) (gain : α)
  | takenBack (step : Vector α n)

namespace Turn

variable {α : Type} {n : Nat}

def isKept : Turn α n → Bool
  | kept _ _ => true
  | takenBack _ => false

def keptStep? : Turn α n → Option (Vector α n)
  | kept step _ => some step
  | takenBack _ => none

def gain? : Turn α n → Option α
  | kept _ gain => some gain
  | takenBack _ => none

end Turn

namespace Search

variable {α : Type} [Scalar α] {n : Nat}

def turn (search : Search α n) : Turn α n → Search α n
  | .kept step gain => (search.propose step).accept gain
  | .takenBack step => (search.propose step).reject

def follow (search : Search α n) (turns : List (Turn α n)) : Search α n :=
  turns.foldl turn search

variable (search : Search α n) (turns : List (Turn α n)) (last : Turn α n)

theorem follow_concat : search.follow (turns ++ [last]) = (search.follow turns).turn last :=
  List.foldl_concat turn search last turns

theorem previous_turn : (search.turn last).previous = search.params := by
  cases last <;> rfl

/-- Taking a step back restores the parameters themselves, without arithmetic. -/
theorem params_reject (step : Vector α n) : (search.propose step).reject.params = search.params :=
  rfl

theorem previous_follow_start (params : Vector α n) (damping : α) :
    ((start params damping).follow turns).previous =
      ((start params damping).follow turns.dropLast).params := by
  induction turns using List.reverseRecOn with
  | nil => rfl
  | append_singleton turns last ih =>
      rw [follow_concat, previous_turn, List.dropLast_concat]

end Search

/-! ## Shrink factors -/

theorem shrinkFactor_eq (gain : ℝ) :
    shrinkFactor gain = max (1 / 3) (1 - (2 * gain - 1) ^ 3) := by
  simp only [shrinkFactor, larger_real, Nat.cast_one, Nat.cast_ofNat]
  ring_nf

theorem cube_strictMono : StrictMono fun a : ℝ => a ^ 3 :=
  Odd.strictMono_pow (by decide)

theorem third_le_shrinkFactor (gain : ℝ) : 1 / 3 ≤ shrinkFactor gain := by
  rw [shrinkFactor_eq]
  exact le_max_left _ _

theorem shrinkFactor_lt_two {gain : ℝ} (gained : 0 < gain) : shrinkFactor gain < 2 := by
  rw [shrinkFactor_eq]
  apply max_lt
  · norm_num
  · have above : (-1 : ℝ) ^ 3 < (2 * gain - 1) ^ 3 := cube_strictMono (by linarith)
    linarith

theorem shrinkFactor_antitone : Antitone (shrinkFactor : ℝ → ℝ) := by
  intro gain better le
  rw [shrinkFactor_eq, shrinkFactor_eq]
  apply max_le_max_left
  have cubes : (2 * gain - 1) ^ 3 ≤ (2 * better - 1) ^ 3 := cube_strictMono.monotone (by linarith)
  linarith

/-! ## Blocks -/

theorem exists_splitOnP_append {β : Type} (p : β → Bool) (entries : List β) :
    ∃ blocks, ∀ more, (∀ entry ∈ more, p entry = false) →
      (entries ++ more).splitOnP p = blocks ++ [entries.rtakeWhile (!p ·) ++ more] := by
  induction entries using List.reverseRecOn with
  | nil => exact ⟨[], fun more free => List.splitOnP_eq_singleton free⟩
  | append_singleton entries entry ih =>
      cases separates : p entry with
      | true =>
          refine ⟨entries.splitOnP p, fun more free => ?_⟩
          rw [List.append_assoc, List.singleton_append, List.splitOnP_append_cons _ _ separates,
            List.splitOnP_eq_singleton free, List.rtakeWhile_concat_neg]
          · rfl
          · simp [separates]
      | false =>
          obtain ⟨blocks, split⟩ := ih
          refine ⟨blocks, fun more free => ?_⟩
          rw [List.append_assoc, List.singleton_append,
            split (entry :: more) (by simpa [separates] using free), List.rtakeWhile_concat_pos]
          · simp
          · simp [separates]

namespace Turn

variable {α : Type} {n : Nat}

/-- How often steps were taken back in a row: before the first kept step, between one kept step and
the next, and behind the last. -/
def rejections (turns : List (Turn α n)) : List Nat :=
  (turns.splitOnP isKept).map List.length

def pending (turns : List (Turn α n)) : Nat :=
  (turns.rtakeWhile (!·.isKept)).length

theorem pending_kept (turns : List (Turn α n)) (step : Vector α n) (gain : α) :
    pending (turns ++ [kept step gain]) = 0 := by
  rw [pending, List.rtakeWhile_concat_neg _ _ _ (by simp [isKept]), List.length_nil]

theorem pending_takenBack (turns : List (Turn α n)) (step : Vector α n) :
    pending (turns ++ [takenBack step]) = pending turns + 1 := by
  rw [pending, List.rtakeWhile_concat_pos _ _ _ (by simp [isKept]), List.length_append]
  rfl

theorem rejections_kept (turns : List (Turn α n)) (step : Vector α n) (gain : α) :
    rejections (turns ++ [kept step gain]) = rejections turns ++ [0] := by
  rw [rejections, List.splitOnP_append_cons _ _ rfl, List.map_append]
  rfl

theorem exists_rejections_eq (turns : List (Turn α n)) :
    ∃ blocks, rejections turns = blocks ++ [pending turns] ∧
      ∀ step, rejections (turns ++ [takenBack step]) = blocks ++ [pending turns + 1] := by
  obtain ⟨blocks, split⟩ := exists_splitOnP_append isKept turns
  refine ⟨blocks.map List.length, ?_, fun step => ?_⟩
  · have whole := split [] (List.forall_mem_nil _)
    rw [List.append_nil, List.append_nil] at whole
    rw [rejections, whole, List.map_append]
    rfl
  · rw [rejections, split [takenBack step] (by simp [isKept]), List.map_append, List.map_singleton,
      List.length_append]
    rfl

section Growth

variable (base : ℝ)

/-- The factor of `k` steps taken back in a row, for each entry `k`. The first of them counts once,
the second twice and so on. -/
def growthOf (blocks : List Nat) : ℝ :=
  (blocks.map fun k => base ^ (k * (k + 1) / 2)).prod

theorem growthOf_concat (blocks : List Nat) (k : Nat) :
    growthOf base (blocks ++ [k]) = growthOf base blocks * base ^ (k * (k + 1) / 2) := by
  rw [growthOf, growthOf, List.map_append, List.prod_append, List.map_singleton, List.prod_singleton]

theorem growthOf_succ (blocks : List Nat) (k : Nat) :
    growthOf base (blocks ++ [k + 1]) = growthOf base (blocks ++ [k]) * base ^ (1 + k) := by
  have triangular : (k + 1) * (k + 1 + 1) / 2 = k * (k + 1) / 2 + (1 + k) := by
    rw [mul_comm, mul_comm k, Nat.add_comm 1]
    exact Nat.triangle_succ (k + 1)
  rw [growthOf_concat, growthOf_concat, triangular, pow_add, mul_assoc]

theorem growthOf_takenBack (turns : List (Turn α n)) (step : Vector α n) :
    growthOf base (rejections (turns ++ [takenBack step])) =
      growthOf base (rejections turns) * base ^ (1 + pending turns) := by
  obtain ⟨blocks, before, after⟩ := exists_rejections_eq turns
  rw [before, after, growthOf_succ]

theorem growthOf_pos {base : ℝ} (positive : 0 < base) (blocks : List Nat) :
    0 < growthOf base blocks := by
  apply List.prod_pos
  simp only [List.mem_map, forall_exists_index, and_imp, forall_apply_eq_imp_iff₂]
  exact fun k _ => pow_pos positive _

end Growth

noncomputable def shrinkOf (turns : List (Turn ℝ n)) : ℝ :=
  ((turns.filterMap gain?).map shrinkFactor).prod

theorem shrinkOf_kept (turns : List (Turn ℝ n)) (step : Vector ℝ n) (gain : ℝ) :
    shrinkOf (turns ++ [kept step gain]) = shrinkOf turns * shrinkFactor gain := by
  simp [shrinkOf, gain?]

theorem shrinkOf_takenBack (turns : List (Turn ℝ n)) (step : Vector ℝ n) :
    shrinkOf (turns ++ [takenBack step]) = shrinkOf turns := by
  simp [shrinkOf, List.filterMap_cons, gain?]

theorem shrinkOf_pos (turns : List (Turn ℝ n)) : 0 < shrinkOf turns := by
  apply List.prod_pos
  simp only [List.mem_map, forall_exists_index, and_imp, forall_apply_eq_imp_iff₂]
  exact fun gain _ => shrinkFactor_pos gain

end Turn

/-! ## The state after any turns -/

namespace Search

open Turn

variable {n : Nat} (search : Search ℝ n) (turns : List (Turn ℝ n))

theorem params_follow (i : Fin n) :
    (search.follow turns).params.get i =
      search.params.get i + ((turns.filterMap keptStep?).map (·.get i)).sum := by
  induction turns using List.reverseRecOn with
  | nil => simp [follow]
  | append_singleton turns last ih =>
      rw [follow_concat, List.filterMap_append, List.map_append, List.sum_append, ← add_assoc, ← ih]
      cases last with
      | kept step gain => simp [turn, accept, params_propose, keptStep?]
      | takenBack step => simp [turn, params_reject, List.filterMap_cons, keptStep?]

theorem schedule_follow (two : search.growth = 2) :
    (search.follow turns).growth = 2 ^ (1 + pending turns) ∧
      (search.follow turns).damping =
        search.damping * shrinkOf turns * growthOf 2 (rejections turns) := by
  induction turns using List.reverseRecOn with
  | nil => simp [follow, two, pending, shrinkOf, growthOf, rejections]
  | append_singleton turns last ih =>
      obtain ⟨growth, damping⟩ := ih
      rw [follow_concat]
      cases last with
      | kept step gain =>
          rw [pending_kept, rejections_kept, growthOf_concat, shrinkOf_kept]
          constructor
          · simp [turn, accept]
          · change (search.follow turns).damping * shrinkFactor gain = _
            rw [damping]
            ring
      | takenBack step =>
          rw [pending_takenBack, growthOf_takenBack, shrinkOf_takenBack]
          constructor
          · change (search.follow turns).growth * ((2 : Nat) : ℝ) = _
            rw [growth, Nat.cast_ofNat, ← pow_succ, Nat.add_assoc]
          · change (search.follow turns).damping * (search.follow turns).growth = _
            rw [damping, growth]
            ring

/-- The state of a search after any turns. -/
theorem follow_start (params : Vector ℝ n) (damping : ℝ) (turns : List (Turn ℝ n)) :
    let last := (start params damping).follow turns
    (∀ i, last.params.get i = params.get i + ((turns.filterMap keptStep?).map (·.get i)).sum) ∧
      last.previous = ((start params damping).follow turns.dropLast).params ∧
      last.growth = 2 ^ (1 + pending turns) ∧
      last.damping =
        damping * ((turns.filterMap gain?).map shrinkFactor).prod *
          ((rejections turns).map fun k => (2 : ℝ) ^ (k * (k + 1) / 2)).prod ∧
      SignType.sign last.damping = SignType.sign damping ∧
      (∀ gain : ℝ, 0 < gain →
        (last.accept gain).damping = last.damping * shrinkFactor gain ∧
          1 / 3 ≤ shrinkFactor gain ∧ shrinkFactor gain < 2) ∧
      Antitone (shrinkFactor : ℝ → ℝ) ∧
      ∀ {α : Type} [Scalar α] (search : Search α n) (step : Vector α n),
        (search.propose step).reject.params = search.params := by
  have growing : (start params damping).growth = 2 := by simp [start]
  obtain ⟨growth, schedule⟩ := schedule_follow (start params damping) turns growing
  have sign : SignType.sign ((start params damping).follow turns).damping =
      SignType.sign damping := by
    rw [schedule, sign_mul, sign_mul, sign_pos (shrinkOf_pos turns),
      sign_pos (growthOf_pos two_pos _), mul_one, mul_one]
    rfl
  exact ⟨params_follow (start params damping) turns, previous_follow_start turns params damping,
    growth, schedule, sign, fun gain gained => ⟨rfl, third_le_shrinkFactor gain,
    shrinkFactor_lt_two gained⟩, shrinkFactor_antitone, fun search step => rfl⟩

theorem follow_start_taken_back :
    let origin : Vector ℝ 1 := .ofFn fun _ => 0
    let unit : Vector ℝ 1 := .ofFn fun _ => 1
    let last := (start origin 3).follow [.kept unit 1, .takenBack unit, .takenBack unit]
    (∀ i, last.params.get i = 1) ∧ (∀ i, last.previous.get i = 1) ∧ last.growth = 8 ∧
      last.damping = 8 ∧ 0 < (1 : ℝ) ∧ (last.accept 1).damping = 8 / 3 := by
  intro origin unit last
  obtain ⟨params, previous, growth, damping, -, accepted, -⟩ :=
    follow_start origin 3 [.kept unit 1, .takenBack unit, .takenBack unit]
  have pendingTwo : pending [.kept unit 1, .takenBack unit, .takenBack unit] = 2 := rfl
  have blocks : rejections [.kept unit 1, .takenBack unit, .takenBack unit] = [0, 2] := rfl
  have eight : last.damping = 8 := by
    rw [damping, blocks]
    norm_num [List.filterMap_cons, gain?, shrinkFactor_one]
  refine ⟨fun i => ?_, fun i => ?_, ?_, eight, one_pos, ?_⟩
  · rw [params]
    simp [origin, unit, List.filterMap_cons, keptStep?]
  · rw [previous, (follow_start origin 3 _).1]
    simp [origin, unit, List.filterMap_cons, keptStep?]
  · rw [growth, pendingTwo]
    norm_num
  · rw [(accepted 1 one_pos).1, eight, shrinkFactor_one]
    norm_num

end Search

end LeastSquares
