import LeastSquares.Decimal.Binary
import LeastSquares.Proofs.Formula.Printing
import LeastSquares.Proofs.MachineNumbers

namespace LeastSquares

open Float.Model (UnpackedFloat Format)
open Float.Model.UnpackedFloat

namespace MachineNumber

theorem sign?_ofScientific (mantissa : Nat) (exponent : Int) :
    sign? (UnpackedFloat.ofScientific .binary64 mantissa exponent) = some .positive := by
  unfold UnpackedFloat.ofScientific
  split_ifs
  · rfl
  · rfl
  · rfl
  · exact Scales.mul.sign?_finite rfl _ _ _
  · exact Scales.div.sign?_finite rfl _ _ _

def Ordinary (a : Float) : Prop :=
  ∃ mantissa exponent positive, a.toModel.unpack = .finite .positive mantissa exponent positive

theorem Scales.signOf_ordinary {op : UnpackedFloat → UnpackedFloat → UnpackedFloat}
    (scales : Scales op) {a b : Float} (left : signOf a = some .positive) (right : Ordinary b) :
    signOf (.ofModel (.pack (op a.toModel.unpack b.toModel.unpack))) = some .positive := by
  obtain ⟨mantissa, exponent, positive, found⟩ := right
  rw [signOf_stored, found]
  exact scales.sign?_finite left _ _ _

theorem signOf_toFloat (n : UInt64) : signOf n.toFloat = some .positive :=
  (signOf_stored _).trans (sign?_normalize _ (Int.natCast_nonneg _) _)

theorem ordinary_of_finite {a : Float} (finite : Scalar.isFinite a = true)
    (above : ((0 : Nat) : Float) < a) : Ordinary a := by
  rw [lt_iff] at above
  rcases unpack_of_isFinite finite with ⟨sign, found⟩ | ⟨sign, mantissa, exponent, positive, found⟩
  · rw [found] at above
    cases above
  · cases sign with
    | positive => exact ⟨mantissa, exponent, positive, found⟩
    | negative =>
        rw [found] at above
        cases above

theorem ordinary_powerOfTen {a : Float} (member : a ∈ Float.exactlyRepresentablePowersOfTen) :
    Ordinary a := by
  have table : ∀ a ∈ Float.exactlyRepresentablePowersOfTen.toList,
      Scalar.isFinite a = true ∧ ((0 : Nat) : Float) < a := by
    decide +kernel
  obtain ⟨finite, above⟩ := table a (Array.mem_toList_iff.mpr member)
  exact ordinary_of_finite finite above

theorem signOf_ofScientific (mantissa places : Nat) (below : Bool) :
    signOf (Float.ofScientific mantissa below places) = some .positive := by
  unfold Float.ofScientific
  split
  · -- Short decimals are computed from a table of powers of ten.
    dsimp only
    split
    · exact Scales.div.signOf_ordinary (signOf_toFloat _) (ordinary_powerOfTen (Array.getElem_mem _))
    · exact Scales.mul.signOf_ordinary (signOf_toFloat _) (ordinary_powerOfTen (Array.getElem_mem _))
  · exact (signOf_stored _).trans (sign?_ofScientific _ _)

theorem signOf_ofDecimal (mantissa : Nat) (exponent : Int) :
    signOf (Scalar.ofDecimal mantissa exponent) = some .positive := by
  change signOf (if mantissa = 0 then 0.0 else if 308 < exponent then 1.0 / 0.0
    else if 3 * exponent + mantissa.log2 + 1 < -1075 then 0.0
    else Float.ofScientific mantissa (exponent < 0) exponent.natAbs) = _
  split_ifs
  · rfl
  · rfl
  · rfl
  · exact signOf_ofScientific _ _ _

theorem sign?_unpack (word : BitVec Format.binary64.numBits) :
    sign? (unpack .binary64 word) = none ∨
      sign? (unpack .binary64 word) = some (Sign.ofBitVec (unpackSign word)) := by
  unfold unpack
  dsimp only
  split_ifs
  · exact .inr rfl
  · exact .inl rfl
  · exact .inr rfl
  · exact .inr rfl
  · exact .inr rfl

theorem toNat_lt_of_positive {word : BitVec Format.binary64.numBits}
    (positive : sign? (unpack .binary64 word) = some .positive) : word.toNat < 2 ^ 63 := by
  have bits : word.toNat < 2 ^ 64 := word.isLt
  have sign : unpackSign word = 0#1 := by
    rcases sign?_unpack word with impossible | found
    · rw [positive] at impossible
      cases impossible
    · have same := Option.some.inj (positive.symm.trans found)
      by_contra other
      rw [Sign.ofBitVec, if_neg other] at same
      cases same
  have top := congrArg BitVec.toNat sign
  rw [unpackSign_def, BitVec.extractLsb'_toNat, Nat.shiftRight_eq_div_pow] at top
  change word.toNat / 2 ^ 63 % 2 ^ 1 = 0 at top
  omega

theorem positive_of_toNat_lt {word : BitVec Format.binary64.numBits}
    (number : sign? (unpack .binary64 word) ≠ none) (low : word.toNat < 2 ^ 63) :
    sign? (unpack .binary64 word) = some .positive := by
  have sign : unpackSign word = 0#1 := by
    apply BitVec.eq_of_toNat_eq
    rw [unpackSign_def, BitVec.extractLsb'_toNat, Nat.shiftRight_eq_div_pow]
    change word.toNat / 2 ^ 63 % 2 ^ 1 = 0
    omega
  rcases sign?_unpack word with unknown | found
  · exact absurd unknown number
  · rw [found, sign]
    rfl

theorem positive_of_signBit {a : Float} (finite : Scalar.isFinite a = true)
    (clear : a.toBits >>> 63 = 0) : signOf a = some .positive := by
  have number : signOf a ≠ none := by
    rcases unpack_of_isFinite finite with ⟨sign, found⟩ | ⟨sign, _, _, _, found⟩
    · rw [signOf, found]
      exact Option.some_ne_none sign
    · rw [signOf, found]
      exact Option.some_ne_none sign
  have low : a.toBits.toNat < 2 ^ 63 := by
    have top := congrArg UInt64.toNat clear
    rw [UInt64.toNat_shiftRight, Nat.shiftRight_eq_div_pow] at top
    change a.toBits.toNat / 2 ^ 63 = 0 at top
    omega
  exact positive_of_toNat_lt number low

theorem signBit_of_positive {a : Float} (positive : signOf a = some .positive) :
    decide (a.toBits >>> 63 = 1) = false := by
  have low : a.toBits.toNat < 2 ^ 63 := toNat_lt_of_positive positive
  refine decide_eq_false fun set => ?_
  have top := congrArg UInt64.toNat set
  rw [UInt64.toNat_shiftRight, Nat.shiftRight_eq_div_pow] at top
  change a.toBits.toNat / 2 ^ 63 = 1 at top
  omega

theorem isNegative_shortest (tie : Tie) (a : Float) :
    (ToDecimal.shortest tie a).isNegative = (!a.isNaN && decide (a.toBits >>> 63 = 1)) := by
  change Decimal.isNegative
    (if a.isNaN then .nan
    else if a.isInf then .infinity (decide (a.toBits >>> 63 = 1))
    else if (Binary.ofBits a.toBits).significand = 0 then
      .finite (decide (a.toBits >>> 63 = 1)) 0 0
    else .finite (decide (a.toBits >>> 63 = 1)) _ _) = _
  split_ifs with poisoned
  · rw [poisoned]
    rfl
  all_goals
    rw [Bool.eq_false_iff.mpr poisoned]
    rfl

theorem isFinite_of_shortest {a : Float} {tie : Tie} {negative : Bool} {coefficient : Nat}
    {exponent : Int} (shown : ToDecimal.shortest tie a = .finite negative coefficient exponent) :
    Scalar.isFinite a = true := by
  by_contra infinite
  change (if a.isNaN then Decimal.nan
    else if a.isInf then .infinity (decide (a.toBits >>> 63 = 1)) else _) = _ at shown
  rcases unpack_of_not_isFinite (Bool.eq_false_iff.mpr infinite) with found | ⟨sign, found⟩
  · have poisoned : a.isNaN = true := congrArg UnpackedFloat.isNaN found
    rw [if_pos poisoned] at shown
    cases shown
  · have number : ¬ a.isNaN = true := Bool.eq_false_iff.mp (congrArg UnpackedFloat.isNaN found)
    have endless : a.isInf = true := congrArg UnpackedFloat.isInf found
    rw [if_neg number, if_pos endless] at shown
    cases shown

end MachineNumber

open MachineNumber

namespace Formula

theorem printsUnsigned_of_positive {a : Float} (positive : signOf a = some .positive) :
    PrintsUnsigned a := by
  refine ⟨not_lt_zero_of_positive positive, ?_⟩
  rw [isNegative_shortest, signBit_of_positive positive, Bool.and_false]

end Formula

end LeastSquares
