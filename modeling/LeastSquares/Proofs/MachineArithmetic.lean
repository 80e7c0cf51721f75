import Mathlib
import LeastSquares.Proofs.MachineRounding

/-!
# Arithmetic of machine numbers

What rounding leaves of the laws of arithmetic. A sum of numbers that are not below zero is zero
only if all of them are (`sum_nonnegative`). A square is zero exactly if the number is
`negligible`, which every difference of unequal numbers exceeds if one of them is `sizeable`. What
is not below zero takes nothing to above one when it is subtracted from one (`one_sub_le`).
-/

namespace LeastSquares.MachineNumber

open Float.Model (UnpackedFloat Format)
open Float.Model.UnpackedFloat

/-! ## Sums of what is not below zero -/

theorem canonical_add {u v : UnpackedFloat} (left : Canonical u) (right : Canonical v) :
    Canonical (add .binary64 u v) := by
  cases u with
  | notANumber => trivial
  | infinity sign =>
      cases v with
      | notANumber | zero sign' | finite sign' mantissa' exponent' positive' => trivial
      | infinity sign' =>
          rw [add]
          split_ifs <;> trivial
  | zero sign =>
      cases v with
      | notANumber | infinity sign' => trivial
      | zero sign' =>
          rw [add]
          split_ifs <;> trivial
      | finite sign' mantissa' exponent' positive' => exact right
  | finite sign mantissa exponent positive =>
      cases v with
      | notANumber | infinity sign' => trivial
      | zero sign' => exact left
      | finite sign' mantissa' exponent' positive' =>
          exact canonical_normalize _ (le_min left.least right.least) _

/-- Among numbers with a negative sign, only zero is not below zero. -/
def Nonnegative (u : UnpackedFloat) : Prop :=
  sign? u = some .negative → ∃ sign, u = .zero sign

theorem nonnegative_of_positive {u : UnpackedFloat} (positive : sign? u = some .positive) :
    Nonnegative u := by
  intro negative
  rw [positive] at negative
  cases negative

theorem Nonnegative.positive {u : UnpackedFloat} {sign : Sign} (nonnegative : Nonnegative u)
    (signed : sign? u = some sign) (nonzero : ∀ zeroSign, u ≠ .zero zeroSign) :
    sign = .positive := by
  cases sign with
  | positive => rfl
  | negative =>
      obtain ⟨zeroSign, found⟩ := nonnegative signed
      exact absurd found (nonzero zeroSign)

theorem add_nonnegative {u v : UnpackedFloat} (canonical : Canonical u) (canonicalToo : Canonical v)
    (left : Nonnegative u) (right : Nonnegative v) :
    Nonnegative (add .binary64 u v) ∧
      ((∃ sign, add .binary64 u v = .zero sign) ↔
        (∃ sign, u = .zero sign) ∧ ∃ sign, v = .zero sign) := by
  cases u with
  | notANumber => exact ⟨nofun, by simp [add]⟩
  | infinity sign =>
      obtain rfl := left.positive rfl nofun
      cases v with
      | notANumber => exact ⟨nofun, by simp [add]⟩
      | infinity sign' =>
          obtain rfl := right.positive rfl nofun
          exact ⟨left, by simp [add]⟩
      | zero sign' | finite sign' mantissa' exponent' positive' => exact ⟨left, by simp [add]⟩
  | zero sign =>
      cases v with
      | notANumber => exact ⟨nofun, by simp [add]⟩
      | infinity sign' => exact ⟨right, by simp [add]⟩
      | zero sign' =>
          cases sign <;> cases sign' <;> exact ⟨fun _ => ⟨_, rfl⟩, by simp [add]⟩
      | finite sign' mantissa' exponent' positive' => exact ⟨right, by simp [add]⟩
  | finite sign mantissa exponent positive =>
      obtain rfl := left.positive rfl nofun
      cases v with
      | notANumber => exact ⟨nofun, by simp [add]⟩
      | infinity sign' => exact ⟨right, by simp [add]⟩
      | zero sign' => exact ⟨left, by simp [add]⟩
      | finite sign' mantissa' exponent' positive' =>
          obtain rfl := right.positive rfl nofun
          have sum : (((mantissa <<< (exponent - min exponent exponent').toNat : Nat) : Int) +
              (mantissa' <<< (exponent' - min exponent exponent').toNat : Nat)) ≠ 0 := by
            rw [Nat.shiftLeft_eq]
            positivity
          obtain ⟨result, place, nonzero, normal, -⟩ :=
            normalize_nonzero .positive sum (le_min canonical.least canonicalToo.least)
          refine ⟨nonnegative_of_positive (sign?_add_positive rfl rfl), ?_⟩
          have sums : add .binary64 (.finite .positive mantissa exponent positive)
              (.finite .positive mantissa' exponent' positive') =
                .finite _ result place nonzero := normal
          rw [sums]
          simp

theorem Nonnegative.stored {u : UnpackedFloat} (nonnegative : Nonnegative u) :
    Nonnegative (Float.Model.pack u).unpack := by
  intro negative
  obtain ⟨sign, rfl⟩ := nonnegative ((sign?_unpack_pack u).symm.trans negative)
  exact ⟨sign, unpack_stored_zero sign⟩

theorem stored_add_nonnegative {a b : Float} (left : Nonnegative a.toModel.unpack)
    (right : Nonnegative b.toModel.unpack) :
    Nonnegative (a + b).toModel.unpack ∧
      ((a + b == ((0 : Nat) : Float)) = true ↔
        (a == ((0 : Nat) : Float)) = true ∧ (b == ((0 : Nat) : Float)) = true) := by
  have canonical := canonical_add (canonical_unpack a) (canonical_unpack b)
  obtain ⟨nonnegative, vanishes⟩ :=
    add_nonnegative (canonical_unpack a) (canonical_unpack b) left right
  refine ⟨nonnegative.stored, ?_⟩
  rw [beq_zero_iff (a := a), beq_zero_iff (a := b), ← vanishes]
  exact stored_eq_zero_iff canonical

theorem sum_nonnegative {addends : Multiset Float} {total : Float} (sums : SumsTo addends total)
    (nonnegative : ∀ a ∈ addends, Nonnegative a.toModel.unpack) :
    Nonnegative total.toModel.unpack ∧ ((total == ((0 : Nat) : Float)) = true ↔
      ∀ a ∈ addends, (a == ((0 : Nat) : Float)) = true) := by
  induction sums with
  | zero => exact ⟨nonnegative_of_positive signOf_zero, by simp [ZeroLaws.zero_beq_zero]⟩
  | single a => simpa using nonnegative
  | add _ _ left right =>
      obtain ⟨here, there⟩ := forall_mem_add.mp nonnegative
      have sum := stored_add_nonnegative (left here).1 (right there).1
      rw [forall_mem_add, ← (left here).2, ← (right there).2]
      exact sum

theorem div_nonnegative {u v : UnpackedFloat} (left : Nonnegative u) (right : Nonnegative v)
    (nonzero : ∀ sign, v ≠ .zero sign) : Nonnegative (div .binary64 u v) := by
  cases v with
  | zero sign' => exact absurd rfl (nonzero sign')
  | notANumber => cases u <;> nofun
  | infinity sign' =>
      cases u with
      | notANumber | infinity sign => nofun
      | zero sign | finite sign mantissa exponent positive => exact fun _ => ⟨_, rfl⟩
  | finite sign' mantissa' exponent' positive' =>
      obtain rfl := right.positive rfl nofun
      cases u with
      | notANumber => nofun
      | zero sign => exact fun _ => ⟨_, rfl⟩
      | infinity sign | finite sign mantissa exponent positive =>
          obtain rfl := left.positive rfl nofun
          exact nonnegative_of_positive (Scales.div.sign?_finite rfl _ _ _)

theorem stored_div_nonnegative {a b : Float} (left : Nonnegative a.toModel.unpack)
    (right : Nonnegative b.toModel.unpack) (nonzero : ¬ (b == ((0 : Nat) : Float)) = true) :
    Nonnegative (a / b).toModel.unpack :=
  (div_nonnegative left right fun sign isZero => nonzero (beq_zero_iff.mpr ⟨sign, isZero⟩)).stored

/-! ## Sizes -/

theorem unpack_abs (a : Float) : (Scalar.abs a).toModel.unpack = a.toModel.unpack.abs := by
  change (Float.Model.pack a.toModel.unpack.abs).unpack = a.toModel.unpack.abs
  cases found : a.toModel.unpack with
  | notANumber => rfl
  | infinity sign => exact unpack_packedInfinity .positive
  | zero sign => exact unpack_stored_zero .positive
  | finite sign mantissa exponent positive =>
      obtain ⟨storable, small⟩ := storable_unpack found
      exact (unpack_pack storable .positive positive).trans (if_pos small)

/-- The size of a number is at most a mantissa times a power of two, both as they are stored. -/
def AtMost (mantissa : Nat) (exponent : Int) : UnpackedFloat → Prop
  | .zero _ => True
  | .finite _ mantissa' exponent' _ =>
    exponent' < exponent ∨ exponent' = exponent ∧ mantissa' ≤ mantissa
  | .infinity _ | .notANumber => False

def AtLeast (mantissa : Nat) (exponent : Int) : UnpackedFloat → Prop
  | .infinity _ => True
  | .finite _ mantissa' exponent' _ =>
    exponent < exponent' ∨ exponent = exponent' ∧ mantissa ≤ mantissa'
  | .zero _ | .notANumber => False

section Bounds

variable {a bound : Float} {mantissa : Nat} {exponent : Int} {positive : 0 < mantissa}

theorem abs_le_iff (stored : bound.toModel.unpack = .finite .positive mantissa exponent positive) :
    Scalar.abs a ≤ bound ↔ AtMost mantissa exponent a.toModel.unpack := by
  rw [le_iff, unpack_abs, stored]
  cases a.toModel.unpack with
  | notANumber => simp [UnpackedFloat.abs, UnpackedFloat.le, UnpackedFloat.compare, AtMost]
  | infinity sign | zero sign | finite sign mantissa' exponent' positive' =>
      refine (le_eq_rank_le (by simp [sign?, UnpackedFloat.abs]) (by simp [sign?])).trans ?_
      simp [UnpackedFloat.abs, rank, Prod.Lex.toLex_le_toLex, AtMost]

theorem le_abs_iff (stored : bound.toModel.unpack = .finite .positive mantissa exponent positive) :
    bound ≤ Scalar.abs a ↔ AtLeast mantissa exponent a.toModel.unpack := by
  rw [le_iff, unpack_abs, stored]
  cases a.toModel.unpack with
  | notANumber => simp [UnpackedFloat.abs, UnpackedFloat.le, UnpackedFloat.compare, AtLeast]
  | infinity sign | zero sign | finite sign mantissa' exponent' positive' =>
      refine (le_eq_rank_le (by simp [sign?]) (by simp [sign?, UnpackedFloat.abs])).trans ?_
      simp [UnpackedFloat.abs, rank, Prod.Lex.toLex_le_toLex, AtLeast]

end Bounds

/-! ## Squares -/

theorem nonnegative_square (a : Float) : Nonnegative (a * a).toModel.unpack := by
  by_cases number : signOf a = none
  · intro negative
    have square : signOf (a * a) = none := by
      refine (signOf_stored _).trans ?_
      rw [sign?_eq_none.mp number]
      rfl
    cases square.symm.trans negative
  · exact nonnegative_of_positive (signOf_square number)

/-- The largest number whose square rounds to zero, about `1.57 · 10 ^ (-162)`. -/
def negligible : Float :=
  .ofModel (.pack (.finite .positive 6369051672525772 (-590) (by decide)))

example : (negligible == 1.5717277847026285e-162) = true := by decide +kernel

theorem unpack_negligible :
    negligible.toModel.unpack = .finite .positive 6369051672525772 (-590) (by decide) :=
  unpack_pack ⟨by decide, by decide, .inl (by decide)⟩ .positive _

theorem Storable.square_fits {mantissa : Nat} {exponent : Int}
    (storable : Storable mantissa exponent) :
    exponent + exponent ≤ target (mantissa * mantissa) (exponent + exponent) := by
  rw [target]
  rcases storable.full with full | lowest
  · have length : 104 ≤ (mantissa * mantissa).log2 := by
      rw [Nat.le_log2 (by positivity)]
      have := Nat.mul_le_mul full full
      omega
    omega
  · omega

theorem Storable.square_tiny_iff {mantissa : Nat} {exponent : Int}
    (storable : Storable mantissa exponent) :
    2 * (mantissa * mantissa) ≤ 2 ^ (-1074 - (exponent + exponent)).toNat ↔
      exponent < -590 ∨ exponent = -590 ∧ mantissa ≤ 6369051672525772 := by
  obtain ⟨short, least, full⟩ := storable
  rcases lt_trichotomy exponent (-590) with below | rfl | above
  · have square : mantissa * mantissa ≤ 2 ^ 53 * 2 ^ 53 := Nat.mul_le_mul short.le short.le
    have power : 2 ^ 108 ≤ 2 ^ (-1074 - (exponent + exponent)).toNat :=
      Nat.pow_le_pow_right (by decide) (by omega)
    omega
  · -- The bound is the whole part of the square root of `2 ^ 105`.
    have places : (-1074 - (-590 + -590) : Int).toNat = 106 := rfl
    rw [places]
    constructor
    · intro tiny
      refine .inr ⟨rfl, Nat.le_of_lt_succ (Nat.lt_of_not_le fun large => ?_)⟩
      have := Nat.mul_le_mul large large
      omega
    · rintro (impossible | ⟨-, small⟩)
      · omega
      · have := Nat.mul_le_mul small small
        omega
  · have square : 2 ^ 52 * 2 ^ 52 ≤ mantissa * mantissa := by
      have whole := full.resolve_right (by omega)
      exact Nat.mul_le_mul whole whole
    have power : 2 ^ (-1074 - (exponent + exponent)).toNat ≤ 2 ^ 104 :=
      Nat.pow_le_pow_right (by decide) (by omega)
    omega

theorem square_eq_zero_iff (a : Float) :
    (a * a == ((0 : Nat) : Float)) = true ↔ Scalar.abs a ≤ negligible := by
  rw [abs_le_iff unpack_negligible]
  change (Float.ofModel (.pack (mul .binary64 a.toModel.unpack a.toModel.unpack)) ==
    ((0 : Nat) : Float)) = true ↔ _
  cases found : a.toModel.unpack with
  | notANumber | infinity sign | zero sign =>
      refine (stored_eq_zero_iff (by trivial)).trans ?_
      simp [mul, AtMost]
  | finite sign mantissa exponent positive =>
      have storable := (storable_unpack found).1
      have tiny := storable.square_tiny_iff
      have product : mul .binary64 (.finite sign mantissa exponent positive)
          (.finite sign mantissa exponent positive) =
        roundWithAccuracy .binary64 (sign * sign) (mantissa * mantissa) (exponent + exponent)
          .exact := rfl
      rw [product]
      rcases roundWithAccuracy_cases (sign * sign) (Nat.mul_pos positive positive)
        storable.square_fits with ⟨rounds, small⟩ | ⟨result, place, nonzero, rounds, large, fits, -⟩
      · rw [rounds]
        exact iff_of_true (stored_zero _ rfl) (tiny.mp small)
      · rw [rounds]
        refine (stored_eq_zero_iff (by exact fits)).trans ?_
        exact iff_of_false nofun fun below => not_le.mpr large (tiny.mpr below)

/-! ## Differences -/

/-- The difference of two mantissas with exponents, in units of the lower exponent. -/
def difference (sign : Sign) (mantissa : Nat) (exponent : Int) (sign' : Sign) (mantissa' : Nat)
    (exponent' : Int) : Int :=
  sign.apply (mantissa <<< (exponent - min exponent exponent').toNat : Nat) -
    sign'.apply (mantissa' <<< (exponent' - min exponent exponent').toNat : Nat)

theorem sub_finite (sign sign' : Sign) (mantissa mantissa' : Nat) (exponent exponent' : Int)
    (positive : 0 < mantissa) (positive' : 0 < mantissa') :
    sub .binary64 (.finite sign mantissa exponent positive)
      (.finite sign' mantissa' exponent' positive') =
      UnpackedFloat.normalize .binary64
        (difference sign mantissa exponent sign' mantissa' exponent') (min exponent exponent')
        .positive := rfl

theorem natAbs_apply (sign : Sign) (size : Nat) : (sign.apply size).natAbs = size := by
  cases sign with
  | negative => exact (Int.natAbs_neg _).trans (Int.natAbs_natCast _)
  | positive => exact Int.natAbs_natCast _

section Difference

variable {sign sign' : Sign} {mantissa mantissa' : Nat} {exponent exponent' : Int}

theorem difference_swap (sign sign' : Sign) (mantissa mantissa' : Nat) (exponent exponent' : Int) :
    difference sign' mantissa' exponent' sign mantissa exponent =
      -difference sign mantissa exponent sign' mantissa' exponent' := by
  rw [difference, difference, min_comm, neg_sub]

theorem Storable.two_pow_lt_difference {places : Nat}
    (storable : Storable mantissa (exponent' + places)) (storable' : Storable mantissa' exponent')
    (some : 0 < places) (sign sign' : Sign) :
    2 ^ (52 + places) <
      (difference sign mantissa (exponent' + places) sign' mantissa' exponent').natAbs +
        2 ^ 53 := by
  have full : 2 ^ 52 ≤ mantissa := storable.full.resolve_right fun lowest => by
    have := storable'.least
    omega
  have shifted : 2 ^ (52 + places) ≤ mantissa * 2 ^ places := by
    rw [pow_add]
    exact Nat.mul_le_mul_right _ full
  have short := storable'.short
  have first := natAbs_apply sign (mantissa * 2 ^ places)
  have second := natAbs_apply sign' mantissa'
  have higher : (exponent' + places - min (exponent' + places) exponent').toNat = places := by omega
  have lower : (exponent' - min (exponent' + places) exponent').toNat = 0 := by omega
  rw [difference, higher, lower, Nat.shiftLeft_eq, Nat.shiftLeft_zero]
  omega

theorem Storable.difference_ne_zero (storable : Storable mantissa exponent)
    (storable' : Storable mantissa' exponent') (above : exponent' < exponent) (sign sign' : Sign) :
    difference sign mantissa exponent sign' mantissa' exponent' ≠ 0 := by
  obtain ⟨places, rfl⟩ := Int.le.dest above.le
  have far := storable.two_pow_lt_difference storable' (by omega) sign sign'
  have power : 2 ^ 53 ≤ 2 ^ (52 + places) := Nat.pow_le_pow_right (by decide) (by omega)
  intro none
  rw [none] at far
  omega

theorem Storable.eq_of_difference_eq_zero (storable : Storable mantissa exponent)
    (storable' : Storable mantissa' exponent') (positive : 0 < mantissa)
    (none : difference sign mantissa exponent sign' mantissa' exponent' = 0) :
    sign = sign' ∧ mantissa = mantissa' ∧ exponent = exponent' := by
  rcases lt_trichotomy exponent exponent' with below | rfl | above
  · refine absurd ?_ (storable'.difference_ne_zero storable below sign' sign)
    rw [difference_swap, none, neg_zero]
  · rw [difference, min_self, sub_self, Int.toNat_zero, Nat.shiftLeft_zero,
      Nat.shiftLeft_zero] at none
    cases sign <;> cases sign' <;> simp [Sign.apply] at none ⊢ <;> omega
  · exact absurd none (storable.difference_ne_zero storable' above sign sign')

/-- If one of two different numbers is not small, they are at least `2 ^ (-537)` apart. -/
theorem Storable.le_log2_difference (storable : Storable mantissa exponent)
    (storable' : Storable mantissa' exponent') (large : -536 ≤ exponent) (sign sign' : Sign) :
    -537 ≤ ((difference sign mantissa exponent sign' mantissa' exponent').natAbs.log2 : Int) +
      min exponent exponent' := by
  by_cases near : -537 ≤ exponent'
  · omega
  · obtain ⟨places, rfl⟩ := Int.le.dest (show exponent' ≤ exponent by omega)
    have far := storable.two_pow_lt_difference storable' (by omega) sign sign'
    have twice : 2 ^ (52 + places) = 2 * 2 ^ (51 + places) := by
      rw [← pow_succ', Nat.add_right_comm]
    have power : 2 ^ 53 ≤ 2 ^ (51 + places) := Nat.pow_le_pow_right (by decide) (by omega)
    have length : 51 + places ≤
        (difference sign mantissa (exponent' + places) sign' mantissa' exponent').natAbs.log2 := by
      rw [Nat.le_log2 (by omega)]
      omega
    omega

end Difference

theorem AtMost.of_stored {u : UnpackedFloat} {mantissa : Nat} {exponent : Int}
    (canonical : Canonical u) (small : AtMost mantissa exponent (Float.Model.pack u).unpack) :
    AtMost mantissa exponent u := by
  cases u with
  | notANumber => exact small
  | infinity sign => cases sign <;> exact small
  | zero sign => trivial
  | finite sign mantissa' exponent' positive =>
      rw [show (Float.Model.pack (.finite sign mantissa' exponent' positive)).unpack = _ from
        unpack_pack canonical sign positive] at small
      split_ifs at small
      · exact small
      · exact small.elim

/-- The number `2 ^ (-484)`. From here on, the numbers are further apart than negligible ones. -/
def sizeable : Float :=
  .ofModel (.pack (.finite .positive (2 ^ 52) (-536) (by decide)))

theorem unpack_sizeable :
    sizeable.toModel.unpack = .finite .positive (2 ^ 52) (-536) (by decide) :=
  unpack_pack ⟨by decide, by decide, .inl le_rfl⟩ .positive _

theorem sub_eq_add_neg (u v : UnpackedFloat) :
    sub .binary64 u v = add .binary64 u v.neg := by
  have apply_neg (sign : Sign) (size : Nat) : (-sign).apply size = -sign.apply size := by
    cases sign with
    | negative => exact (Int.neg_neg _).symm
    | positive => rfl
  cases u with
  | notANumber => rfl
  | infinity sign | zero sign => cases v <;> rfl
  | finite sign mantissa exponent positive =>
      cases v with
      | notANumber | infinity sign' | zero sign' => rfl
      | finite sign' mantissa' exponent' positive' =>
          simp only [sub, UnpackedFloat.neg, add, apply_neg, Int.sub_eq_add_neg]

theorem canonical_sub {u v : UnpackedFloat} (left : Canonical u) (right : Canonical v) :
    Canonical (sub .binary64 u v) := by
  rw [sub_eq_add_neg]
  exact canonical_add left (by cases v <;> exact right)

theorem Storable.eq_of_sub_atMost {sign sign' : Sign} {mantissa mantissa' : Nat}
    {exponent exponent' : Int} (left : Storable mantissa exponent)
    (right : Storable mantissa' exponent') (positive : 0 < mantissa) (positive' : 0 < mantissa')
    (large : -536 ≤ exponent ∨ -536 ≤ exponent')
    (near : AtMost 6369051672525772 (-590) (sub .binary64
      (.finite sign mantissa exponent positive) (.finite sign' mantissa' exponent' positive'))) :
    UnpackedFloat.finite sign mantissa exponent positive =
      .finite sign' mantissa' exponent' positive' := by
  have apart : -537 ≤
      ((difference sign mantissa exponent sign' mantissa' exponent').natAbs.log2 : Int) +
        min exponent exponent' := by
    rcases large with large | large
    · exact left.le_log2_difference right large sign sign'
    · have swapped := right.le_log2_difference left large sign' sign
      rwa [difference_swap, Int.natAbs_neg, min_comm] at swapped
  by_cases none : difference sign mantissa exponent sign' mantissa' exponent' = 0
  · obtain ⟨rfl, rfl, rfl⟩ := left.eq_of_difference_eq_zero right positive none
    rfl
  · -- What is apart is rounded to a number whose last place is above that of the bound.
    obtain ⟨result, place, nonzero, normal, -, reached⟩ :=
      normalize_nonzero .positive none (le_min left.least right.least)
    rw [sub_finite, normal] at near
    simp only [AtMost] at near
    rw [target] at reached
    omega

theorem eq_of_sub_atMost {u v : UnpackedFloat} (left : Canonical u) (right : Canonical v)
    (large : AtLeast (2 ^ 52) (-536) u ∨ AtLeast (2 ^ 52) (-536) v)
    (near : AtMost 6369051672525772 (-590) (sub .binary64 u v)) : u = v := by
  cases u with
  | notANumber => exact near.elim
  | infinity sign =>
      cases v with
      | notANumber | zero sign' | finite sign' mantissa' exponent' positive' => exact near.elim
      | infinity sign' =>
          rw [sub] at near
          split_ifs at near <;> exact near.elim
  | zero sign =>
      cases v with
      | notANumber | infinity sign' => exact near.elim
      | zero sign' => exact (large.elim id id).elim
      | finite sign' mantissa' exponent' positive' =>
          rcases large with impossible | large
          · exact impossible.elim
          · simp only [sub, AtMost, AtLeast] at near large
            omega
  | finite sign mantissa exponent positive =>
      cases v with
      | notANumber | infinity sign' => exact near.elim
      | zero sign' =>
          rcases large with large | impossible
          · simp only [sub, AtMost, AtLeast] at near large
            omega
          · exact impossible.elim
      | finite sign' mantissa' exponent' positive' =>
          simp only [AtLeast] at large
          exact left.eq_of_sub_atMost right positive positive'
            (large.imp (fun _ => by omega) fun _ => by omega) near

theorem eq_of_sub_negligible {a b : Float}
    (large : sizeable ≤ Scalar.abs a ∨ sizeable ≤ Scalar.abs b)
    (near : Scalar.abs (a - b) ≤ negligible) : a = b := by
  rw [le_abs_iff unpack_sizeable, le_abs_iff unpack_sizeable] at large
  rw [abs_le_iff unpack_negligible] at near
  exact unpack_injective (eq_of_sub_atMost (canonical_unpack a) (canonical_unpack b) large
    (.of_stored (canonical_sub (canonical_unpack a) (canonical_unpack b)) near))

/-! ## Differences from one -/

def one : UnpackedFloat :=
  .finite .positive (2 ^ 52) (-52) (by decide)

theorem rank_negative_le_one {u : UnpackedFloat} (negative : sign? u = some .negative) :
    rank u ≤ rank one := by
  cases u with
  | notANumber => cases negative
  | infinity sign | zero sign | finite sign mantissa exponent positive =>
      obtain rfl := Option.some.inj negative
      simp [rank, one, Prod.Lex.toLex_le_toLex]

theorem rank_stored_negative {u : UnpackedFloat} (negative : sign? u = some .negative) :
    rank (Float.Model.pack u).unpack ≤ rank one :=
  rank_negative_le_one ((sign?_unpack_pack u).trans negative)

theorem rank_stored_zero (sign : Sign) :
    rank (Float.Model.pack (.zero sign)).unpack ≤ rank one := by
  rw [show (Float.Model.pack (.zero sign)).unpack = .zero sign from unpack_stored_zero sign]
  exact rank_zero_le sign rfl

theorem target_difference_one {mantissa : Nat} {exponent : Int} (positive : 0 < mantissa)
    (above : 0 < difference .positive (2 ^ 52) (-52) .positive mantissa exponent)
    (least : -1074 ≤ exponent) :
    target (difference .positive (2 ^ 52) (-52) .positive mantissa exponent).natAbs
      (min (-52) exponent) ≤ -53 := by
  obtain ⟨places, lowest⟩ : ∃ places : Nat, min (-52) exponent = -52 - (places : Int) :=
    ⟨(-52 - min (-52) exponent).toNat, by omega⟩
  have filled : 0 < mantissa <<< (exponent - min (-52) exponent).toNat := by
    rw [Nat.shiftLeft_eq]
    positivity
  have below : (difference .positive (2 ^ 52) (-52) .positive mantissa exponent).natAbs <
      2 ^ (52 + places) := by
    rw [pow_add, ← Nat.shiftLeft_eq]
    rw [difference, Sign.apply, Sign.apply, lowest,
      show (-52 - (-52 - (places : Int))).toNat = places by omega] at above ⊢
    rw [lowest] at filled
    omega
  have length := (Nat.log2_lt (by omega)).mpr below
  rw [target, lowest]
  omega

theorem rank_one_sub_le {u : UnpackedFloat} (canonical : Canonical u)
    (nonnegative : Nonnegative u) :
    rank (Float.Model.pack (sub .binary64 one u)).unpack ≤ rank one := by
  cases u with
  | notANumber => exact rank_stored_zero .positive
  | infinity sign =>
      obtain rfl := nonnegative.positive rfl nofun
      exact rank_stored_negative rfl
  | zero sign =>
      have stored : (Float.Model.pack (sub .binary64 one (.zero sign))).unpack = one :=
        unpack_pack ⟨by decide, by decide, .inl le_rfl⟩ .positive _
      rw [stored]
  | finite sign mantissa exponent positive =>
      obtain rfl := nonnegative.positive rfl nofun
      have least : -1074 ≤ min (-52) exponent := le_min (by decide) canonical.least
      have normal := sub_finite .positive .positive (2 ^ 52) mantissa (-52) exponent
        (by decide) positive
      rw [one, normal]
      rcases lt_trichotomy (difference .positive (2 ^ 52) (-52) .positive mantissa exponent) 0 with
        below | none | above
      · obtain ⟨result, place, nonzero, rounds, -⟩ := normalize_nonzero .positive below.ne least
        rw [rounds, if_pos below]
        exact rank_stored_negative rfl
      · rw [none]
        exact rank_stored_zero .positive
      · obtain ⟨result, place, nonzero, rounds, storable, reached⟩ :=
          normalize_nonzero .positive above.ne' least
        have small := target_difference_one positive above canonical.least
        have kept : (Float.Model.pack (.finite .positive result place nonzero)).unpack = _ :=
          unpack_pack storable .positive nonzero
        rw [rounds, if_neg above.not_gt, kept, if_pos (by omega)]
        simp only [rank, Prod.Lex.toLex_le_toLex, lt_self_iff_false, true_and, false_or]
        omega

theorem one_sub_le {a : Float} (nonnegative : Nonnegative a.toModel.unpack)
    (number : Scalar.isNaN (((1 : Nat) : Float) - a) = false) :
    ((1 : Nat) : Float) - a ≤ ((1 : Nat) : Float) := by
  have unit : signOf ((1 : Nat) : Float) ≠ none := Option.some_ne_none _
  rw [le_iff_place (isNaN_eq_false.mp number) unit]
  exact rank_one_sub_le (canonical_unpack a) nonnegative

end LeastSquares.MachineNumber
