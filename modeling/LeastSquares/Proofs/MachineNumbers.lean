import Mathlib
import LeastSquares.Proofs.Scalars

/-!
# Machine numbers obey the laws

Double-precision numbers are stored words, and every operation unpacks its operands, computes and
stores the result. Two things said of unpacked numbers carry all laws: the sign, which only what is
not a number lacks and which storing keeps (`sign?_unpack_pack`), and the place in the order of all
numbers (`rank`).
-/

namespace LeastSquares

open Float.Model (UnpackedFloat Format)
open Float.Model.UnpackedFloat

namespace MachineNumber

/-! ## Signs -/

def sign? : UnpackedFloat → Option Sign
  | .notANumber => none
  | .infinity sign | .zero sign | .finite sign _ _ _ => some sign

theorem sign?_eq_none {u : UnpackedFloat} : sign? u = none ↔ u = .notANumber := by
  cases u <;> simp [sign?]

theorem unpackSign_packComponents (spec : Format) (sign : Sign) (exponent : BitVec spec.exponentBits)
    (mantissa : BitVec spec.mantissaBitsWithoutImplicit) :
    unpackSign (packComponents spec sign exponent mantissa) = sign.toBitVec := by
  ext i bound
  obtain rfl : i = 0 := by omega
  simp [unpackSign, packComponents, BitVec.getLsbD_append, BitVec.getElem_append]

theorem ofBitVec_toBitVec (sign : Sign) : Sign.ofBitVec sign.toBitVec = sign := by
  cases sign <;> rfl

theorem sign?_unpack_components (sign : Sign) {exponent : BitVec 11} {mantissa : BitVec 52}
    (number : exponent = -1#11 → mantissa = 0#52) :
    sign? (unpack .binary64 (packComponents .binary64 sign exponent mantissa)) = some sign := by
  unfold unpack
  simp only [unpackMantissa_packComponents, unpackExponent_packComponents,
    unpackSign_packComponents, ofBitVec_toBitVec]
  split_ifs with special zero
  · rfl
  · exact absurd (number special) zero
  · rfl
  · rfl
  · rfl

theorem sign?_unpack_pack (u : UnpackedFloat) :
    sign? (unpack .binary64 (pack .binary64 u)) = sign? u := by
  cases u with
  | notANumber => rfl
  | infinity sign => exact sign?_unpack_components sign fun _ => rfl
  | zero sign => exact sign?_unpack_components sign fun _ => rfl
  | finite sign mantissa exponent positive =>
      rw [pack]
      split_ifs with overflow normal
      · exact sign?_unpack_components sign fun _ => rfl
      · -- The exponent of a number that does not overflow is not the one kept for special values.
        apply sign?_unpack_components
        intro special
        have bits := congrArg BitVec.toNat special
        rw [BitVec.toNat_ofNat, Nat.mod_eq_of_lt (by omega)] at bits
        have ones : (-1#11).toNat + 1 = 2 ^ Format.binary64.exponentBits := rfl
        omega
      · exact sign?_unpack_components sign fun special => absurd special (by decide)

/-! ## Signs of results -/

theorem sign?_roundWithAccuracy (spec : Format) (sign : Sign) (mantissa : Nat) (exponent : Int)
    (accuracy : Accuracy) :
    sign? (roundWithAccuracy spec sign mantissa exponent accuracy) = some sign := by
  unfold roundWithAccuracy
  dsimp only
  split_ifs <;> rfl

theorem sign?_normalize (spec : Format) {mantissa : Int} (nonneg : 0 ≤ mantissa) (exponent : Int) :
    sign? (UnpackedFloat.normalize spec mantissa exponent .positive) = some .positive := by
  unfold UnpackedFloat.normalize
  split
  · next negative => exact absurd (compare_lt_iff_lt.mp negative) (not_lt.mpr nonneg)
  · rfl
  · exact sign?_roundWithAccuracy ..

theorem sign?_add_positive {u v : UnpackedFloat} (left : sign? u = some .positive)
    (right : sign? v = some .positive) : sign? (add .binary64 u v) = some .positive := by
  cases u with
  | notANumber => cases left
  | infinity sign =>
      obtain rfl := Option.some.inj left
      cases v with
      | notANumber => cases right
      | infinity sign =>
          obtain rfl := Option.some.inj right
          rfl
      | zero sign => rfl
      | finite sign mantissa exponent positive => rfl
  | zero sign =>
      obtain rfl := Option.some.inj left
      cases v with
      | notANumber => cases right
      | infinity sign => exact right
      | zero sign =>
          obtain rfl := Option.some.inj right
          rfl
      | finite sign mantissa exponent positive => exact right
  | finite sign mantissa exponent positive =>
      obtain rfl := Option.some.inj left
      cases v with
      | notANumber => cases right
      | infinity sign => exact right
      | zero sign => rfl
      | finite sign mantissa' exponent' positive' =>
          obtain rfl := Option.some.inj right
          exact sign?_normalize _ (Int.add_nonneg (Int.natCast_nonneg _) (Int.natCast_nonneg _)) _

theorem sign?_mul_self {u : UnpackedFloat} (number : sign? u ≠ none) :
    sign? (mul .binary64 u u) = some .positive := by
  have square (sign : Sign) : sign * sign = .positive := by cases sign <;> rfl
  cases u with
  | notANumber => exact absurd rfl number
  | infinity sign => exact congrArg some (square sign)
  | zero sign => exact congrArg some (square sign)
  | finite sign mantissa exponent positive =>
      exact (sign?_roundWithAccuracy ..).trans (congrArg some (square sign))

/-- Multiplication and division, which leave a positive sign as it is where the right operand is a
finite number above zero. -/
inductive Scales : (UnpackedFloat → UnpackedFloat → UnpackedFloat) → Prop where
  | mul : Scales (mul .binary64)
  | div : Scales (div .binary64)

theorem Scales.sign?_finite {op : UnpackedFloat → UnpackedFloat → UnpackedFloat} (scales : Scales op)
    {u : UnpackedFloat} (left : sign? u = some .positive) (mantissa : Nat) (exponent : Int)
    (positive : 0 < mantissa) :
    sign? (op u (.finite .positive mantissa exponent positive)) = some .positive := by
  cases u with
  | notANumber => cases left
  | infinity sign | zero sign =>
      obtain rfl := Option.some.inj left
      cases scales <;> rfl
  | finite sign mantissa exponent positive =>
      obtain rfl := Option.some.inj left
      cases scales <;> exact sign?_roundWithAccuracy ..

theorem sign?_abs (u : UnpackedFloat) : sign? u.abs = (sign? u).map fun _ => .positive := by
  cases u <;> rfl

/-! ## Places in the order -/

/-- Both zeros have one place. Finite numbers of one sign are compared by exponent first, since the
mantissas of stored numbers are as long as they can be. -/
def rank : UnpackedFloat → ℤ ×ₗ ℤ ×ₗ ℤ
  | .infinity .negative => toLex (-2, toLex (0, 0))
  | .finite .negative mantissa exponent _ => toLex (-1, toLex (-exponent, -mantissa))
  | .zero _ | .notANumber => toLex (0, toLex (0, 0))
  | .finite .positive mantissa exponent _ => toLex (1, toLex (exponent, mantissa))
  | .infinity .positive => toLex (2, toLex (0, 0))

theorem then_eq_lt (e e' : ℤ) (m m' : ℕ) :
    (compare e e').then (compare m m') = .lt ↔ e < e' ∨ e = e' ∧ m < m' := by
  rw [Ordering.then_eq_lt, compare_lt_iff_lt, compare_lt_iff_lt, compare_eq_iff_eq]

theorem then_eq_gt (e e' : ℤ) (m m' : ℕ) :
    (compare e e').then (compare m m') = .gt ↔ e' < e ∨ e = e' ∧ m' < m := by
  rw [Ordering.then_eq_gt, compare_gt_iff_gt, compare_gt_iff_gt, compare_eq_iff_eq]

theorem lt_eq_rank_lt {u v : UnpackedFloat} (left : sign? u ≠ none) (right : sign? v ≠ none) :
    u.lt v = true ↔ rank u < rank v := by
  have signs : compare Sign.negative Sign.positive = .lt := rfl
  rcases u with (_ | _) | _ | _ | ⟨_ | _, m, e, _⟩ <;>
    rcases v with (_ | _) | _ | _ | ⟨_ | _, m', e', _⟩ <;>
    first
    | exact absurd rfl left
    | exact absurd rfl right
    | simp [UnpackedFloat.lt, UnpackedFloat.compare, rank, Prod.Lex.toLex_lt_toLex, then_eq_lt,
        then_eq_gt, signs]

theorem lt_eq_false {u v : UnpackedFloat} (either : sign? u = none ∨ sign? v = none) :
    u.lt v = false := by
  rcases either with left | right
  · rw [sign?_eq_none.mp left]
    rfl
  · rw [sign?_eq_none.mp right]
    cases u <;> rfl

theorem beq_eq_rank_eq {u v : UnpackedFloat} (left : sign? u ≠ none) (right : sign? v ≠ none) :
    u.beq v = true ↔ rank u = rank v := by
  have unlike : compare Sign.negative Sign.positive = .lt ∧
      compare Sign.positive Sign.negative = .gt := ⟨rfl, rfl⟩
  have alike : compare Sign.negative Sign.negative = .eq ∧
      compare Sign.positive Sign.positive = .eq := ⟨rfl, rfl⟩
  rcases u with (_ | _) | _ | _ | ⟨_ | _, m, e, _⟩ <;>
    rcases v with (_ | _) | _ | _ | ⟨_ | _, m', e', _⟩ <;>
    first
    | exact absurd rfl left
    | exact absurd rfl right
    | simp [UnpackedFloat.beq, UnpackedFloat.compare, rank, Ordering.then_eq_eq, unlike, alike]

theorem le_eq_lt_or_beq (u v : UnpackedFloat) : u.le v = (u.lt v || u.beq v) := by
  rw [UnpackedFloat.le, UnpackedFloat.lt, UnpackedFloat.beq]
  rcases u.compare v with _ | _ | _ | _ <;> rfl

theorem le_eq_rank_le {u v : UnpackedFloat} (left : sign? u ≠ none) (right : sign? v ≠ none) :
    u.le v = true ↔ rank u ≤ rank v := by
  rw [le_eq_lt_or_beq, Bool.or_eq_true, lt_eq_rank_lt left right, beq_eq_rank_eq left right,
    le_iff_lt_or_eq]

theorem rank_zero_le {u : UnpackedFloat} (sign : Sign) (positive : sign? u = some .positive) :
    rank (.zero sign) ≤ rank u := by
  cases u with
  | notANumber => cases positive
  | infinity sign =>
      obtain rfl := Option.some.inj positive
      simp [rank, Prod.Lex.toLex_le_toLex]
  | zero sign => exact le_refl _
  | finite sign mantissa exponent _ =>
      obtain rfl := Option.some.inj positive
      simp [rank, Prod.Lex.toLex_le_toLex]

/-! ## Stored numbers -/

def signOf (a : Float) : Option Sign :=
  sign? a.toModel.unpack

def place (a : Float) : ℤ ×ₗ ℤ ×ₗ ℤ :=
  rank a.toModel.unpack

theorem signOf_stored (u : UnpackedFloat) : signOf (.ofModel (.pack u)) = sign? u :=
  sign?_unpack_pack u

theorem isNaN_eq (a : Float) : Scalar.isNaN a = (signOf a).isNone := by
  change a.toModel.unpack.isNaN = (sign? a.toModel.unpack).isNone
  cases a.toModel.unpack <;> rfl

theorem isNaN_eq_true {a : Float} : Scalar.isNaN a = true ↔ signOf a = none := by
  rw [isNaN_eq, Option.isNone_iff_eq_none]

theorem isNaN_eq_false {a : Float} : Scalar.isNaN a = false ↔ signOf a ≠ none := by
  rw [ne_eq, ← isNaN_eq_true, Bool.not_eq_true]

theorem lt_iff {a b : Float} : a < b ↔ a.toModel.unpack.lt b.toModel.unpack = true :=
  decide_eq_true_iff

theorem numbers_of_lt {a b : Float} (below : a < b) : signOf a ≠ none ∧ signOf b ≠ none := by
  rw [lt_iff] at below
  constructor
  · intro none
    rw [lt_eq_false (.inl none)] at below
    cases below
  · intro none
    rw [lt_eq_false (.inr none)] at below
    cases below

theorem lt_iff_place {a b : Float} (left : signOf a ≠ none) (right : signOf b ≠ none) :
    a < b ↔ place a < place b := by
  rw [lt_iff, lt_eq_rank_lt left right]
  rfl

theorem le_iff {a b : Float} : a ≤ b ↔ a.toModel.unpack.le b.toModel.unpack = true :=
  decide_eq_true_iff

theorem numbers_of_le {a b : Float} (below : a ≤ b) : signOf a ≠ none ∧ signOf b ≠ none := by
  rw [le_iff] at below
  constructor
  · intro none
    rw [sign?_eq_none.mp none] at below
    cases below
  · intro none
    rw [sign?_eq_none.mp none] at below
    generalize a.toModel.unpack = u at below
    cases u <;> cases below

theorem le_iff_place {a b : Float} (left : signOf a ≠ none) (right : signOf b ≠ none) :
    a ≤ b ↔ place a ≤ place b := by
  rw [le_iff, le_eq_rank_le left right]
  rfl

theorem not_lt_zero_of_positive {a : Float} (positive : signOf a = some .positive) :
    ¬ a < ((0 : Nat) : Float) := by
  intro below
  obtain ⟨number, zero⟩ := numbers_of_lt below
  rw [lt_iff_place number zero] at below
  exact absurd below (not_lt.mpr (rank_zero_le .positive positive))

theorem signOf_zero : signOf ((0 : Nat) : Float) = some .positive := rfl

theorem signOf_abs (a : Float) : signOf (Scalar.abs a) = (signOf a).map fun _ => .positive :=
  (signOf_stored _).trans (sign?_abs _)

theorem signOf_add {a b : Float} (left : signOf a = some .positive)
    (right : signOf b = some .positive) : signOf (a + b) = some .positive :=
  (signOf_stored _).trans (sign?_add_positive left right)

theorem signOf_square {a : Float} (number : signOf a ≠ none) : signOf (a * a) = some .positive :=
  (signOf_stored _).trans (sign?_mul_self number)

theorem signOf_half {a : Float} (positive : signOf a = some .positive) :
    signOf (a / ((2 : Nat) : Float)) = some .positive := by
  have two : ((2 : Nat) : Float).toModel.unpack = .finite .positive (2 ^ 52) (-51) (by decide) :=
    rfl
  refine (signOf_stored _).trans ?_
  rw [two]
  exact Scales.div.sign?_finite positive _ _ _

theorem signOf_sum {addends : Multiset Float} {total : Float} (sums : SumsTo addends total)
    (positive : ∀ a ∈ addends, signOf a = some .positive) : signOf total = some .positive :=
  sums.closed (P := fun a => signOf a = some .positive) signOf_zero signOf_add positive

theorem isNaN_stored {op : UnpackedFloat → UnpackedFloat → UnpackedFloat}
    (left : ∀ v, op .notANumber v = .notANumber) (right : ∀ u, op u .notANumber = .notANumber)
    {a b : Float} (either : Scalar.isNaN a = true ∨ Scalar.isNaN b = true) :
    Scalar.isNaN (Float.ofModel (.pack (op a.toModel.unpack b.toModel.unpack))) = true := by
  rw [isNaN_eq_true, signOf_stored, sign?_eq_none]
  rcases either with found | found
  · rw [sign?_eq_none.mp (isNaN_eq_true.mp found)]
    exact left _
  · rw [sign?_eq_none.mp (isNaN_eq_true.mp found)]
    exact right _

/-! ## Zeros and finite numbers -/

theorem beq_zero_iff {a : Float} :
    (a == ((0 : Nat) : Float)) = true ↔ ∃ sign, a.toModel.unpack = .zero sign := by
  have zero : ((0 : Nat) : Float).toModel.unpack = .zero .positive := rfl
  change a.toModel.unpack.beq ((0 : Nat) : Float).toModel.unpack = true ↔ _
  rw [zero]
  rcases a.toModel.unpack with (_ | _) | _ | _ | ⟨_ | _, m, e, _⟩ <;>
    simp [UnpackedFloat.beq, UnpackedFloat.compare]

theorem unpack_stored_zero (sign : Sign) :
    (Float.ofModel (.pack (.zero sign))).toModel.unpack = .zero sign :=
  unpack_packedZero

theorem stored_zero {u : UnpackedFloat} (sign : Sign) (zero : u = .zero sign) :
    (Float.ofModel (.pack u) == ((0 : Nat) : Float)) = true :=
  beq_zero_iff.mpr ⟨sign, by rw [zero, unpack_stored_zero]⟩

theorem isFinite_unpack (word : BitVec Format.binary64.numBits) :
    (unpack .binary64 word).isFinite = decide (unpackExponent word ≠ -1#11) := by
  unfold unpack
  dsimp only
  split_ifs with special zero <;> simp_all [UnpackedFloat.isFinite]

theorem unpackExponent_pack_neg (u : UnpackedFloat) :
    unpackExponent (pack .binary64 u.neg) = unpackExponent (pack .binary64 u) := by
  cases u with
  | notANumber => rfl
  | infinity sign => cases sign <;> rfl
  | zero sign => cases sign <;> rfl
  | finite sign mantissa exponent positive =>
      rw [UnpackedFloat.neg, pack, pack]
      dsimp only
      split_ifs
      · simp [packedInfinity]
      · simp
      · simp

theorem isFinite_stored_neg (model : Float.Model) :
    (Float.Model.pack model.unpack.neg).unpack.isFinite = model.unpack.isFinite := by
  have whole : pack .binary64 model.unpack = model.toBits.toBitVec :=
    pack_unpack_of_valid model.valid
  have fields := (unpackExponent_pack_neg model.unpack).trans (congrArg unpackExponent whole)
  refine (isFinite_unpack _).trans (Eq.trans ?_ (isFinite_unpack _).symm)
  exact congrArg (fun field => decide (field ≠ -1#11)) fields

theorem unpack_of_isFinite {a : Float} (finite : Scalar.isFinite a = true) :
    (∃ sign, a.toModel.unpack = .zero sign) ∨
      ∃ sign mantissa exponent positive,
        a.toModel.unpack = .finite sign mantissa exponent positive := by
  change a.toModel.unpack.isFinite = true at finite
  cases found : a.toModel.unpack with
  | notANumber | infinity sign => rw [found] at finite; cases finite
  | zero sign => exact .inl ⟨sign, rfl⟩
  | finite sign mantissa exponent positive => exact .inr ⟨sign, mantissa, exponent, positive, rfl⟩

theorem unpack_of_not_isFinite {a : Float} (infinite : Scalar.isFinite a = false) :
    a.toModel.unpack = .notANumber ∨ ∃ sign, a.toModel.unpack = .infinity sign := by
  change a.toModel.unpack.isFinite = false at infinite
  cases found : a.toModel.unpack with
  | notANumber => exact .inl rfl
  | infinity sign => exact .inr ⟨sign, rfl⟩
  | zero sign | finite sign mantissa exponent positive => rw [found] at infinite; cases infinite

theorem signOf_of_isFinite {a : Float} (finite : Scalar.isFinite a = true) : signOf a ≠ none := by
  rw [signOf]
  rcases unpack_of_isFinite finite with ⟨sign, zero⟩ | ⟨sign, mantissa, exponent, positive, found⟩
  · rw [zero]
    exact Option.some_ne_none sign
  · rw [found]
    exact Option.some_ne_none sign

/-! ## Equality -/

theorem unpack_injective {a b : Float} (same : a.toModel.unpack = b.toModel.unpack) : a = b := by
  have words : a.toModel.toBits.toBitVec = b.toModel.toBits.toBitVec := calc
    a.toModel.toBits.toBitVec = pack .binary64 a.toModel.unpack :=
      (pack_unpack_of_valid a.toModel.valid).symm
    _ = pack .binary64 b.toModel.unpack := congrArg (pack .binary64) same
    _ = b.toModel.toBits.toBitVec := pack_unpack_of_valid b.toModel.valid
  obtain ⟨⟨bits, valid⟩⟩ := a
  obtain ⟨⟨bitsToo, validToo⟩⟩ := b
  cases UInt64.toBitVec_inj.mp words
  rfl

theorem unpack_of_beq {u v : UnpackedFloat} (equal : u.beq v = true) :
    u = v ∨ ∃ sign, v = .zero sign := by
  rcases u with (_ | _) | _ | _ | ⟨_ | _, m, e, _⟩ <;>
    rcases v with (_ | _) | _ | sign | ⟨_ | _, m', e', _⟩ <;>
    simp_all [UnpackedFloat.beq, UnpackedFloat.compare, Ordering.then_eq_eq]

theorem eq_of_beq {a b : Float} (equal : (a == b) = true)
    (nonzero : (b == ((0 : Nat) : Float)) = false) : a = b := by
  rcases unpack_of_beq (show a.toModel.unpack.beq b.toModel.unpack = true from equal) with
    same | ⟨sign, zero⟩
  · exact unpack_injective same
  · rw [beq_zero_iff.mpr ⟨sign, zero⟩] at nonzero
    cases nonzero

end MachineNumber

open MachineNumber

instance : NaNLaws Float where
  isNaN_nan _ := by decide
  isNaN_add := isNaN_stored (fun _ => rfl) fun u => by cases u <;> rfl
  isNaN_sub := isNaN_stored (fun _ => rfl) fun u => by cases u <;> rfl
  isNaN_mul := isNaN_stored (fun _ => rfl) fun u => by cases u <;> rfl
  isNaN_div := isNaN_stored (fun _ => rfl) fun u => by cases u <;> rfl
  not_lt either := by
    rw [lt_iff, lt_eq_false (either.imp isNaN_eq_true.mp isNaN_eq_true.mp)]
    exact Bool.false_ne_true
  number_sumOfSquares squares sums := by
    have positive := signOf_sum sums fun square member => by
      obtain ⟨a, number, rfl⟩ := squares square member
      exact signOf_square (isNaN_eq_false.mp number)
    rw [isNaN_eq, isNaN_eq, signOf_half positive, positive]
    exact ⟨rfl, rfl⟩

instance : OrderLaws Float where
  isNaN_nan _ := by decide
  isNaN_zero := by decide
  isNaN_abs a := by rw [isNaN_eq, isNaN_eq, signOf_abs, Option.isNone_map]
  lt_trans below above := by
    obtain ⟨left, middle⟩ := numbers_of_lt below
    have right := (numbers_of_lt above).2
    rw [lt_iff_place left right]
    exact ((lt_iff_place left middle).mp below).trans ((lt_iff_place middle right).mp above)
  lt_of_not_lt numberLeft numberMiddle notBelow below := by
    have left := isNaN_eq_false.mp numberLeft
    have middle := isNaN_eq_false.mp numberMiddle
    have right := (numbers_of_lt below).2
    rw [lt_iff_place left middle, not_lt] at notBelow
    rw [lt_iff_place left right] at below
    rw [lt_iff_place middle right]
    exact notBelow.trans_lt below
  not_abs_lt_zero a below := by
    have size := (numbers_of_lt below).1
    have positive : signOf (Scalar.abs a) = some .positive := by
      obtain ⟨sign, found⟩ := Option.ne_none_iff_exists'.mp size
      rw [signOf_abs] at found ⊢
      obtain ⟨_, number, -⟩ := Option.map_eq_some_iff.mp found
      rw [number, Option.map_some]
    exact not_lt_zero_of_positive positive below

instance : FiniteOrderLaws Float where
  number_of_isFinite finite := isNaN_eq_false.mpr (signOf_of_isFinite finite)
  le_refl finite := (le_iff_place (signOf_of_isFinite finite) (signOf_of_isFinite finite)).mpr le_rfl
  le_trans below above := by
    obtain ⟨left, middle⟩ := numbers_of_le below
    have right := (numbers_of_le above).2
    rw [le_iff_place left right]
    exact ((le_iff_place left middle).mp below).trans ((le_iff_place middle right).mp above)
  le_of_lt below := by
    obtain ⟨left, right⟩ := numbers_of_lt below
    exact (le_iff_place left right).mpr ((lt_iff_place left right).mp below).le
  le_of_not_lt finite finiteToo notBelow := by
    have left := signOf_of_isFinite finite
    have right := signOf_of_isFinite finiteToo
    rw [lt_iff_place left right, not_lt] at notBelow
    exact (le_iff_place right left).mpr notBelow

instance : ZeroLaws Float where
  zero_beq_zero := by decide
  isFinite_zero zero := by
    obtain ⟨sign, zero⟩ := beq_zero_iff.mp zero
    exact congrArg UnpackedFloat.isFinite zero
  isFinite_neg a := isFinite_stored_neg a.toModel
  isNaN_of_isFinite finite := isNaN_eq_false.mpr (signOf_of_isFinite finite)
  sub_self finite := by
    rcases unpack_of_isFinite finite with ⟨sign, zero⟩ | ⟨sign, mantissa, exponent, positive, found⟩
    · refine stored_zero .positive ?_
      rw [zero]
      cases sign <;> rfl
    · refine stored_zero .positive ?_
      rw [found, UnpackedFloat.sub]
      simp [UnpackedFloat.normalize]
  add_zero left right := by
    obtain ⟨sign, left⟩ := beq_zero_iff.mp left
    obtain ⟨sign', right⟩ := beq_zero_iff.mp right
    refine stored_zero (if sign == sign' then sign else .positive) ?_
    rw [left, right]
    cases sign <;> cases sign' <;> rfl
  mul_zero finite zero := by
    obtain ⟨sign', zero⟩ := beq_zero_iff.mp zero
    rcases unpack_of_isFinite finite with ⟨sign, found⟩ | ⟨sign, mantissa, exponent, positive, found⟩
    · exact stored_zero (sign * sign') (by rw [found, zero]; rfl)
    · exact stored_zero (sign * sign') (by rw [found, zero]; rfl)
  isNaN_mul_zero infinite zero := by
    obtain ⟨sign', zero⟩ := beq_zero_iff.mp zero
    refine isNaN_eq_true.mpr ((signOf_stored _).trans (sign?_eq_none.mpr ?_))
    rcases unpack_of_not_isFinite infinite with found | ⟨sign, found⟩
    · rw [found]
      rfl
    · rw [found, zero]
      rfl
  half_zero zero := by
    obtain ⟨sign, zero⟩ := beq_zero_iff.mp zero
    refine stored_zero (sign / .positive) ?_
    rw [zero]
    rfl
  abs_zero_lt {a c} zero positive := by
    obtain ⟨sign, zero⟩ := beq_zero_iff.mp zero
    have stored : (Scalar.abs a).toModel.unpack = .zero .positive :=
      (congrArg (fun u => (Float.Model.pack (UnpackedFloat.abs u)).unpack) zero).trans
        (unpack_stored_zero .positive)
    rw [lt_iff] at positive ⊢
    rw [stored]
    exact positive

instance : ConstantLaws Float where
  eq_pi equal := eq_of_beq equal (by decide +kernel)
  eq_e equal := eq_of_beq equal (by decide +kernel)

instance : VanishingLaws Float where
  zero_beq_zero := ZeroLaws.zero_beq_zero
  neg zero := by
    obtain ⟨sign, zero⟩ := beq_zero_iff.mp zero
    refine stored_zero (-sign) ?_
    rw [zero]
    rfl
  add := ZeroLaws.add_zero
  sub left right := by
    obtain ⟨sign, left⟩ := beq_zero_iff.mp left
    obtain ⟨sign', right⟩ := beq_zero_iff.mp right
    refine stored_zero (if sign == -sign' then sign else .positive) ?_
    rw [left, right]
    cases sign <;> cases sign' <;> rfl
  mul_finite zero finite := by
    obtain ⟨sign, zero⟩ := beq_zero_iff.mp zero
    rcases unpack_of_isFinite finite with ⟨sign', found⟩ | ⟨sign', mantissa, exponent, positive, found⟩
    · exact stored_zero (sign * sign') (by rw [zero, found]; rfl)
    · exact stored_zero (sign * sign') (by rw [zero, found]; rfl)
  finite_mul := ZeroLaws.mul_zero
  div_finite {a b} zero finite nonzero := by
    obtain ⟨sign, zero⟩ := beq_zero_iff.mp zero
    rcases unpack_of_isFinite finite with ⟨sign', found⟩ | ⟨sign', mantissa, exponent, positive, found⟩
    · rw [beq_zero_iff.mpr ⟨sign', found⟩] at nonzero
      cases nonzero
    · exact stored_zero (sign / sign') (by rw [zero, found]; rfl)

end LeastSquares
