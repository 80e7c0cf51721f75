import Mathlib
import LeastSquares.Proofs.MachineNumbers

/-!
# Rounding of machine numbers

An exact result is a mantissa times a power of two. It is rounded by dropping binary places until
the mantissa fits, where a last place that overflows is carried (`roundWithAccuracy_cases`). What
comes out is the one way in which that number is stored (`Storable`), so storing it changes nothing
unless it is too large (`unpack_pack`).
-/

namespace LeastSquares.MachineNumber

open Float.Model (UnpackedFloat Format totalExponent)
open Float.Model.UnpackedFloat

/-! ## Dropping places -/

/-- After places were dropped, the round bit tells whether at least half a unit is gone, and the
sticky bit whether it is neither nothing nor exactly a half. -/
theorem shiftRight_exact (mantissa places : Nat) :
    ExtendedMantissa.ofMantissaAndAccuracy mantissa .exact >>> places =
      ⟨mantissa / 2 ^ places, decide (2 ^ places ≤ 2 * (mantissa % 2 ^ places)),
        decide (mantissa % 2 ^ places ≠ 0 ∧ 2 * (mantissa % 2 ^ places) ≠ 2 ^ places)⟩ := by
  induction places with
  | zero => simp [HShiftRight.hShiftRight, Nat.repeat, Nat.mod_one,
      ExtendedMantissa.ofMantissaAndAccuracy]
  | succ places ih =>
      change ExtendedMantissa.shiftRightOne
        (ExtendedMantissa.ofMantissaAndAccuracy mantissa .exact >>> places) = _
      have dropped := Nat.mod_pow_succ (x := mantissa) (b := 2) (k := places)
      have below : mantissa % 2 ^ places < 2 ^ places := Nat.mod_lt _ (Nat.two_pow_pos places)
      have twice : 2 ^ (places + 1) = 2 * 2 ^ places := by rw [pow_succ, mul_comm]
      rw [ih, ExtendedMantissa.shiftRightOne, Nat.div_div_eq_div_mul, ← pow_succ, dropped, twice]
      generalize mantissa % 2 ^ places = lost at below
      rcases Nat.mod_two_eq_zero_or_one (mantissa / 2 ^ places) with last | last
      all_goals
        rw [last]
        congr 1
        · rw [Bool.eq_iff_iff, decide_eq_true_iff, bne_iff_ne]
          omega
        · rw [Bool.eq_iff_iff, Bool.or_eq_true, decide_eq_true_iff, decide_eq_true_iff,
            decide_eq_true_iff]
          omega

def rounded (mantissa places : Nat) : Nat :=
  (ExtendedMantissa.ofMantissaAndAccuracy mantissa .exact >>> places).roundedMantissa

theorem rounded_bounds (mantissa places : Nat) :
    mantissa / 2 ^ places ≤ rounded mantissa places ∧
      rounded mantissa places ≤ mantissa / 2 ^ places + 1 := by
  rw [rounded, shiftRight_exact, ExtendedMantissa.roundedMantissa]
  rcases decide (2 ^ places ≤ 2 * (mantissa % 2 ^ places)) with _ | _ <;>
    rcases decide (mantissa % 2 ^ places ≠ 0 ∧ 2 * (mantissa % 2 ^ places) ≠ 2 ^ places) with
      _ | _ <;>
    simp [ExtendedMantissa.accuracy, Accuracy.roundToNearestEven]
  omega

theorem rounded_eq_zero_iff (mantissa places : Nat) :
    rounded mantissa places = 0 ↔ 2 * mantissa ≤ 2 ^ places := by
  have positive : 0 < 2 ^ places := Nat.two_pow_pos places
  by_cases below : mantissa < 2 ^ places
  · have up (half sticky : Bool) :
        (ExtendedMantissa.mk 0 half sticky).roundedMantissa = (half && sticky).toNat := by
      cases half <;> cases sticky <;> rfl
    rw [rounded, shiftRight_exact, Nat.mod_eq_of_lt below, Nat.div_eq_of_lt below, up,
      ← Bool.decide_and, Bool.toNat_eq_zero, decide_eq_false_iff_not]
    omega
  · have := (rounded_bounds mantissa places).1
    have := Nat.div_pos (not_lt.mp below) positive
    omega

/-! ## Rounding -/

/-- A mantissa and an exponent as they are stored: the mantissa is as long as it can be, unless the
exponent is the least. -/
structure Storable (mantissa : Nat) (exponent : Int) : Prop where
  short : mantissa < 2 ^ 53
  least : -1074 ≤ exponent
  full : 2 ^ 52 ≤ mantissa ∨ exponent = -1074

/-- The exponent that makes a mantissa as long as it can be, or the least one. -/
def target (mantissa : Nat) (exponent : Int) : Int :=
  max (mantissa.log2 + exponent - 52) (-1074)

theorem targetExponent_eq (mantissa : Nat) (exponent : Int) :
    Format.binary64.targetExponent (totalExponent mantissa exponent) =
      target mantissa exponent := by
  unfold Format.targetExponent totalExponent target Format.mantissaBits Format.minExponent
    Format.mantissaBits
  dsimp only
  omega

theorem shiftToTargetExponent_short {mantissa : Nat} {exponent : Int} (short : mantissa < 2 ^ 53)
    (least : -1074 ≤ exponent) :
    shiftToTargetExponent .binary64 mantissa exponent .exact =
      (⟨mantissa, false, false⟩, exponent) := by
  have length : mantissa.log2 ≤ 52 := by
    by_cases zero : mantissa = 0
    · rw [zero]
      decide
    · exact Nat.le_of_lt_succ ((Nat.log2_lt zero).mpr short)
  have none : (target mantissa exponent - exponent).toNat = 0 := by
    unfold target
    omega
  rw [shiftToTargetExponent, targetExponent_eq, shiftToExponent, none]
  simp [shiftRight_exact, Nat.mod_one]

theorem shiftToTargetExponent_carry {exponent : Int} (least : -1074 ≤ exponent) :
    shiftToTargetExponent .binary64 (2 ^ 53) exponent .exact =
      (⟨2 ^ 52, false, false⟩, exponent + 1) := by
  have one : (target (2 ^ 53) exponent - exponent).toNat = 1 := by
    rw [target, Nat.log2_two_pow]
    omega
  rw [shiftToTargetExponent, targetExponent_eq, shiftToExponent, one]
  simp [shiftRight_exact]

section Target

variable {mantissa places : Nat} {exponent : Int}

theorem log2_of_target (reached : target mantissa exponent = exponent + places) :
    mantissa.log2 = 52 + places ∨
      mantissa.log2 ≤ 52 + places ∧ (places : Int) = -1074 - exponent := by
  rw [target] at reached
  omega

theorem rounded_le (reached : target mantissa exponent = exponent + places) :
    rounded mantissa places ≤ 2 ^ 53 := by
  have length : mantissa.log2 ≤ 52 + places := (log2_of_target reached).elim Eq.le And.left
  have short : mantissa / 2 ^ places < 2 ^ 53 := by
    rw [Nat.div_lt_iff_lt_mul (Nat.two_pow_pos places), ← pow_add]
    exact Nat.lt_log2_self.trans_le (Nat.pow_le_pow_right (by decide) (by omega))
  exact (rounded_bounds mantissa places).2.trans short

theorem le_rounded (positive : 0 < mantissa)
    (reached : target mantissa exponent = exponent + places) :
    2 ^ 52 ≤ rounded mantissa places ∨ (places : Int) = -1074 - exponent := by
  refine (log2_of_target reached).imp (fun length => ?_) And.right
  refine le_trans ?_ (rounded_bounds mantissa places).1
  rw [Nat.le_div_iff_mul_le (Nat.two_pow_pos places), ← pow_add, ← length]
  exact Nat.log2_self_le positive.ne'

theorem roundWithAccuracy_eq (sign : Sign)
    (reached : target mantissa exponent = exponent + places) :
    roundWithAccuracy .binary64 sign mantissa exponent .exact =
      if zero : rounded mantissa places = 0 then .zero sign
      else if rounded mantissa places < 2 ^ 53 then
        .finite sign (rounded mantissa places) (exponent + places) (Nat.pos_of_ne_zero zero)
      else .finite sign (2 ^ 52) (exponent + places + 1) (by decide) := by
  have first : (target mantissa exponent - exponent).toNat = places := by omega
  have least : -1074 ≤ exponent + places := reached ▸ le_max_right _ _
  have answer : roundWithAccuracy .binary64 sign mantissa exponent .exact =
      let final :=
        shiftToTargetExponent .binary64 (rounded mantissa places) (exponent + places) .exact
      if zero : final.1.mantissa = 0 then .zero sign
      else .finite sign final.1.mantissa final.2 (Nat.pos_of_ne_zero zero) := by
    rw [roundWithAccuracy, shiftToTargetExponent, targetExponent_eq, shiftToExponent, first]
    rfl
  rw [answer]
  rcases Nat.lt_or_eq_of_le (rounded_le reached) with fitting | carried
  · simp only [shiftToTargetExponent_short fitting least, if_pos fitting]
  · simp only [carried, shiftToTargetExponent_carry least, lt_self_iff_false, if_false]
    rfl

end Target

/-- What rounding makes of a positive mantissa whose exponent is not too large to begin with: zero
if it is at most half of the least number, else a number whose exponent is the one aimed at, or
that after it if all places are rounded up. -/
theorem roundWithAccuracy_cases (sign : Sign) {mantissa : Nat} {exponent : Int}
    (positive : 0 < mantissa) (fits : exponent ≤ target mantissa exponent) :
    (roundWithAccuracy .binary64 sign mantissa exponent .exact = .zero sign ∧
      2 * mantissa ≤ 2 ^ (-1074 - exponent).toNat) ∨
    ∃ result place, ∃ nonzero : 0 < result,
      roundWithAccuracy .binary64 sign mantissa exponent .exact =
        .finite sign result place nonzero ∧
      2 ^ (-1074 - exponent).toNat < 2 * mantissa ∧ Storable result place ∧
      (place = target mantissa exponent ∨
        place = target mantissa exponent + 1 ∧ result = 2 ^ 52) := by
  obtain ⟨places, reached⟩ := Int.le.dest fits
  have reached := reached.symm
  have least : -1074 ≤ exponent + places := reached ▸ le_max_right _ _
  have long := le_rounded positive reached
  rw [roundWithAccuracy_eq sign reached]
  by_cases zero : rounded mantissa places = 0
  · refine .inl ⟨dif_pos zero, ?_⟩
    -- Nothing is rounded to zero above the least exponent, where the mantissa is full.
    have lowest := long.resolve_left (by rw [zero]; decide)
    rw [← lowest, Int.toNat_natCast]
    exact (rounded_eq_zero_iff mantissa places).mp zero
  have large : 2 ^ (-1074 - exponent).toNat < 2 * mantissa := calc
    2 ^ (-1074 - exponent).toNat ≤ 2 ^ places := Nat.pow_le_pow_right (by decide) (by omega)
    _ < 2 * mantissa := not_le.mp (mt (rounded_eq_zero_iff mantissa places).mpr zero)
  right
  rw [dif_neg zero]
  by_cases fitting : rounded mantissa places < 2 ^ 53
  · rw [if_pos fitting]
    exact ⟨_, _, Nat.pos_of_ne_zero zero, rfl, large,
      ⟨fitting, least, long.imp_right fun lowest => by omega⟩, .inl reached.symm⟩
  · rw [if_neg fitting]
    exact ⟨_, _, by decide, rfl, large, ⟨by decide, by omega, .inl le_rfl⟩,
      .inr ⟨by rw [reached], rfl⟩⟩

theorem log2_shiftLeft {mantissa : Nat} (positive : 0 < mantissa) (places : Nat) :
    (mantissa <<< places).log2 = mantissa.log2 + places := by
  rw [Nat.shiftLeft_eq, Nat.log2_eq_iff (by positivity), pow_add, Nat.add_right_comm, pow_add]
  exact ⟨Nat.mul_le_mul_right _ (Nat.log2_self_le positive.ne'),
    Nat.mul_lt_mul_of_pos_right Nat.lt_log2_self (Nat.two_pow_pos places)⟩

theorem target_shiftLeft {mantissa : Nat} (positive : 0 < mantissa) (exponent : Int)
    (places : Nat) :
    target (mantissa <<< places) (exponent - places) = target mantissa exponent := by
  rw [target, log2_shiftLeft positive, target]
  omega

theorem round_finite (sign : Sign) {mantissa : Nat} {exponent : Int} (positive : 0 < mantissa)
    (least : -1074 ≤ exponent) :
    ∃ result place, ∃ nonzero : 0 < result,
      UnpackedFloat.round .binary64 sign mantissa exponent = .finite sign result place nonzero ∧
      Storable result place ∧
      (place = target mantissa exponent ∨
        place = target mantissa exponent + 1 ∧ result = 2 ^ 52) := by
  rw [UnpackedFloat.round, targetExponent_eq, decreaseExponent]
  set places := (exponent - target mantissa exponent).toNat with lowered
  have lowest : -1074 ≤ target mantissa exponent := le_max_right _ _
  have same := target_shiftLeft positive exponent places
  have filled : 0 < mantissa <<< places := by
    rw [Nat.shiftLeft_eq]
    positivity
  have fits : exponent - places ≤ target (mantissa <<< places) (exponent - places) := by omega
  rcases roundWithAccuracy_cases sign filled fits with
    ⟨-, tiny⟩ | ⟨result, place, nonzero, rounds, -, storable, reached⟩
  · rw [show (-1074 - (exponent - places)).toNat = 0 by omega] at tiny
    omega
  · exact ⟨result, place, nonzero, rounds, storable, same ▸ reached⟩

theorem normalize_nonzero (zeroSign : Sign) {mantissa : Int} {exponent : Int}
    (nonzero : mantissa ≠ 0) (least : -1074 ≤ exponent) :
    ∃ result place, ∃ positive : 0 < result,
      UnpackedFloat.normalize .binary64 mantissa exponent zeroSign =
        .finite (if mantissa < 0 then .negative else .positive) result place positive ∧
      Storable result place ∧
      (place = target mantissa.natAbs exponent ∨
        place = target mantissa.natAbs exponent + 1 ∧ result = 2 ^ 52) := by
  unfold UnpackedFloat.normalize
  rcases lt_or_gt_of_ne nonzero with below | above
  · rw [compare_lt_iff_lt.mpr below, if_pos below,
      show mantissa.natAbs = (-mantissa).toNat by omega]
    exact round_finite .negative (by omega) least
  · rw [compare_gt_iff_gt.mpr above, if_neg above.not_gt,
      show mantissa.natAbs = mantissa.toNat by omega]
    exact round_finite .positive (by omega) least

/-! ## Storing -/

theorem toNat_implicit (bits : BitVec 52) : (1#1 ++ bits).toNat = 2 ^ 52 + bits.toNat := by
  rw [BitVec.toNat_append, ← Nat.shiftLeft_add_eq_or_of_lt bits.isLt]
  rfl

theorem storable_unpack {word : BitVec Format.binary64.numBits} {sign : Sign} {mantissa : Nat}
    {exponent : Int} {positive : 0 < mantissa}
    (found : unpack .binary64 word = .finite sign mantissa exponent positive) :
    Storable mantissa exponent ∧ exponent ≤ 971 := by
  have bias : (Format.binary64.exponentBias : Int) = 1023 := rfl
  have fraction : (unpackMantissa word).toNat < 2 ^ 52 := (unpackMantissa word).isLt
  have power : (unpackExponent word).toNat < 2 ^ 11 := (unpackExponent word).isLt
  unfold unpack at found
  dsimp only at found
  split_ifs at found with special infinite subnormal zero
  · cases found
    rw [subnormal]
    exact ⟨⟨fraction.trans (by decide), by decide, .inr rfl⟩, by decide⟩
  · cases found
    rw [toNat_implicit]
    have used : (unpackExponent word).toNat ≠ 0 := fun none =>
      subnormal (BitVec.eq_of_toNat_eq none)
    have kept : (unpackExponent word).toNat ≠ 2047 := fun ones =>
      special (BitVec.eq_of_toNat_eq ones)
    exact ⟨⟨by omega, by omega, .inl (by omega)⟩, by omega⟩

theorem unpack_packedInfinity (sign : Sign) :
    unpack .binary64 (packedInfinity .binary64 sign) = .infinity sign := by
  cases sign <;> rfl

theorem unpack_normal (sign : Sign) {mantissa power : Nat} (positive : 0 < mantissa)
    (full : 2 ^ 52 ≤ mantissa) (short : mantissa < 2 ^ 53) (used : 0 < power)
    (kept : power < 2047) :
    unpack .binary64
        (packComponents .binary64 sign (BitVec.ofNat 11 power) (BitVec.ofNat 52 mantissa)) =
      .finite sign mantissa (power - 1075) positive := by
  have bits : (BitVec.ofNat 11 power).toNat = power := by
    rw [BitVec.toNat_ofNat]
    omega
  have whole : (1#1 ++ BitVec.ofNat 52 mantissa).toNat = mantissa := by
    rw [toNat_implicit, BitVec.toNat_ofNat]
    omega
  have notSpecial : BitVec.ofNat 11 power ≠ -1#11 := by
    intro special
    have ones : (-1#11).toNat = 2047 := rfl
    rw [← special, bits] at ones
    omega
  have notSubnormal : BitVec.ofNat 11 power ≠ 0#11 := by
    intro subnormal
    rw [subnormal] at bits
    exact used.ne bits
  unfold unpack
  simp only [unpackMantissa_packComponents, unpackExponent_packComponents,
    unpackSign_packComponents, ofBitVec_toBitVec, if_neg notSpecial, if_neg notSubnormal, bits,
    whole]
  rfl

theorem unpack_subnormal (sign : Sign) {mantissa : Nat} (positive : 0 < mantissa)
    (short : mantissa < 2 ^ 52) :
    unpack .binary64 (packComponents .binary64 sign 0#11 (BitVec.ofNat 52 mantissa)) =
      .finite sign mantissa (-1074) positive := by
  have bits : (BitVec.ofNat 52 mantissa).toNat = mantissa := by
    rw [BitVec.toNat_ofNat, Nat.mod_eq_of_lt short]
  have nonzero : BitVec.ofNat 52 mantissa ≠ 0#52 := by
    intro zero
    rw [zero] at bits
    exact positive.ne bits
  have notSpecial : 0#11 ≠ -1#11 := by decide
  unfold unpack
  simp only [unpackMantissa_packComponents, unpackExponent_packComponents,
    unpackSign_packComponents, ofBitVec_toBitVec, if_neg notSpecial, if_true, dif_neg nonzero,
    bits]
  rfl

theorem unpack_pack {mantissa : Nat} {exponent : Int} (storable : Storable mantissa exponent)
    (sign : Sign) (positive : 0 < mantissa) :
    unpack .binary64 (pack .binary64 (.finite sign mantissa exponent positive)) =
      if exponent ≤ 971 then .finite sign mantissa exponent positive else .infinity sign := by
  obtain ⟨short, least, full⟩ := storable
  obtain ⟨power, rfl⟩ : ∃ power : Nat, exponent = power - 1075 :=
    ⟨(exponent + 1075).toNat, by omega⟩
  have biased : ((power : Int) - 1075 + (1023 : Nat) + (52 : Nat)).toNat = power := by omega
  have packed : pack .binary64 (.finite sign mantissa (power - 1075) positive) =
      if 2048 ≤ ((power : Int) - 1075 + (1023 : Nat) + (52 : Nat)).toNat + 1 then
        packedInfinity .binary64 sign
      else if mantissa.log2 + 1 = 53 then
        packComponents .binary64 sign
          (BitVec.ofNat 11 ((power : Int) - 1075 + (1023 : Nat) + (52 : Nat)).toNat)
          (BitVec.ofNat 52 mantissa)
      else packComponents .binary64 sign 0#11 (BitVec.ofNat 52 mantissa) := rfl
  rw [packed, biased]
  by_cases overflow : 2048 ≤ power + 1
  · rw [if_pos overflow, if_neg (by omega)]
    exact unpack_packedInfinity sign
  rw [if_neg overflow, if_pos (show (power : Int) - 1075 ≤ 971 by omega)]
  by_cases normal : mantissa.log2 + 1 = 53
  · rw [if_pos normal]
    have whole : 2 ^ 52 ≤ mantissa := (Nat.le_log2 positive.ne').mp (by omega)
    exact unpack_normal sign positive whole short (by omega) (by omega)
  · rw [if_neg normal]
    have length : mantissa.log2 < 53 := (Nat.log2_lt positive.ne').mpr short
    have few : mantissa < 2 ^ 52 := (Nat.log2_lt positive.ne').mp (by omega)
    have lowest : (power : Int) - 1075 = -1074 := full.resolve_left (not_le.mpr few)
    rw [unpack_subnormal sign positive few]
    simp only [lowest]

def Canonical : UnpackedFloat → Prop
  | .finite _ mantissa exponent _ => Storable mantissa exponent
  | _ => True

theorem canonical_unpack (a : Float) : Canonical a.toModel.unpack := by
  cases found : a.toModel.unpack with
  | notANumber | infinity sign | zero sign => trivial
  | finite sign mantissa exponent positive => exact (storable_unpack found).1

theorem stored_eq_zero_iff {u : UnpackedFloat} (canonical : Canonical u) :
    (Float.ofModel (.pack u) == ((0 : Nat) : Float)) = true ↔ ∃ sign, u = .zero sign := by
  refine ⟨fun isZero => ?_, fun ⟨sign, isZero⟩ => stored_zero sign isZero⟩
  obtain ⟨sign, found⟩ := beq_zero_iff.mp isZero
  cases u with
  | notANumber => cases found
  | infinity sign => cases sign <;> cases found
  | zero sign => exact ⟨sign, rfl⟩
  | finite sign mantissa exponent positive =>
      have stored := unpack_pack canonical sign positive
      split_ifs at stored
      · cases stored.symm.trans found
      · cases stored.symm.trans found

theorem canonical_normalize (mantissa : Int) {exponent : Int} (least : -1074 ≤ exponent)
    (zeroSign : Sign) :
    Canonical (UnpackedFloat.normalize .binary64 mantissa exponent zeroSign) := by
  by_cases zero : mantissa = 0
  · rw [zero]
    trivial
  · obtain ⟨result, place, positive, normal, storable, -⟩ :=
      normalize_nonzero zeroSign zero least
    rw [normal]
    exact storable

end LeastSquares.MachineNumber
