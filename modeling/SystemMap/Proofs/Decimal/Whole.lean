/-
Whole numbers in doubles. A whole number of at most `2^53` is a double itself: nothing is rounded
when it is stored (`whole?_nearestInt`), and sums and differences of such numbers that are again
so small are stored sums and differences (`nearestInt_add`, `nearestInt_sub`).

A double is computed with in its parts, sign, mantissa and exponent; `unpacked` gives the parts
of a whole number. All the work is in powers of two: the mantissa of a whole number has 53 bits,
and whatever number of bits a sum has before it is rounded, only zeros are cut off behind.
-/
import Mathlib.Algebra.Order.Ring.Int
import SystemMap.Decimal.Reading

namespace SystemMap.Decimal

open Float.Model (Format UnpackedFloat totalExponent)
open Float.Model.UnpackedFloat (Sign ExtendedMantissa)

-- ================================================================ mantissas

/-- The mantissa of a whole number: the number moved to where it has 53 bits. -/
def mantissa (k : Nat) : Nat := k * 2 ^ 52 / 2 ^ k.log2

/-- Nothing of a number of at most `2^53` is lost when it is moved. -/
theorem mantissa_mul {k : Nat} (hk : k ≤ 2 ^ 53) : mantissa k * 2 ^ k.log2 = k * 2 ^ 52 := by
  refine Nat.div_mul_cancel ?_
  rcases Nat.lt_or_eq_of_le hk with hless | rfl
  · have hbits : k.log2 ≤ 52 := by
      by_cases hzero : k = 0
      · rw [hzero]
        decide
      · exact Nat.lt_succ_iff.1 ((Nat.log2_lt hzero).2 hless)
    exact Nat.dvd_mul_left_of_dvd (Nat.pow_dvd_pow 2 hbits) k
  · rw [Nat.log2_two_pow]
    exact Nat.dvd_mul_right _ _

/-- A mantissa has 53 binary digits. -/
theorem mantissa_bounds {k : Nat} (hk : k ≠ 0) : 2 ^ 52 ≤ mantissa k ∧ mantissa k < 2 ^ 53 := by
  have hlow : 2 ^ k.log2 ≤ k := Nat.log2_self_le hk
  have hhigh : k < 2 ^ (k.log2 + 1) := Nat.lt_log2_self
  constructor
  · refine (Nat.le_div_iff_mul_le (Nat.two_pow_pos _)).2 ?_
    rw [Nat.mul_comm]
    exact Nat.mul_le_mul_right _ hlow
  · refine Nat.div_lt_of_lt_mul ?_
    calc k * 2 ^ 52 < 2 ^ (k.log2 + 1) * 2 ^ 52 :=
          Nat.mul_lt_mul_of_pos_right hhigh (Nat.two_pow_pos 52)
      _ = 2 ^ k.log2 * 2 ^ 53 := by rw [← Nat.pow_add, ← Nat.pow_add, Nat.add_right_comm]

theorem mantissa_pos {k : Nat} (hk : k ≠ 0) : 0 < mantissa k :=
  Nat.lt_of_lt_of_le (Nat.two_pow_pos 52) (mantissa_bounds hk).1

/-- Zeros behind a number add to its binary digits. -/
theorem log2_mul_pow {m : Nat} (hm : m ≠ 0) (i : Nat) : (m * 2 ^ i).log2 = m.log2 + i := by
  have hpos : 0 < 2 ^ i := Nat.two_pow_pos i
  refine (Nat.log2_eq_iff (Nat.mul_ne_zero hm hpos.ne')).2 ⟨?_, ?_⟩
  · rw [Nat.pow_add]
    exact Nat.mul_le_mul_right _ (Nat.log2_self_le hm)
  · rw [Nat.add_right_comm, Nat.pow_add]
    exact Nat.mul_lt_mul_of_pos_right Nat.lt_log2_self hpos

/-- All mantissas have the same number of binary digits. -/
theorem log2_eq_of_mantissa {x : Nat} (hx : 2 ^ 52 ≤ x ∧ x < 2 ^ 53) : x.log2 = 52 :=
  (Nat.log2_eq_iff (by omega)).2 hx

-- ============================================================ whole numbers

/-- The sign of a whole number. -/
def signOf (n : Int) : Sign := if n < 0 then .negative else .positive

/-- A number is its size under its sign. -/
theorem apply_signOf (n : Int) : (signOf n).apply n.natAbs = n := by
  unfold signOf
  split
  · show -(n.natAbs : Int) = n
    omega
  · show (n.natAbs : Int) = n
    omega

theorem natAbs_ne_zero_of_ne {n : Int} (h : n ≠ 0) : n.natAbs ≠ 0 := Int.natAbs_ne_zero.2 h

/-- Unpacked doubles are equal if their parts are. -/
theorem finite_congr {s s' : Sign} {x x' : Nat} {e e' : Int} (hs : s = s') (hx : x = x')
    (he : e = e') (hpos : 0 < x) (hpos' : 0 < x') :
    UnpackedFloat.finite s x e hpos = .finite s' x' e' hpos' := by
  subst hs hx he
  rfl

/-- A whole number as a double in its parts. -/
def unpacked (n : Int) : UnpackedFloat :=
  if h : n = 0 then .zero .positive
  else .finite (signOf n) (mantissa n.natAbs) (n.natAbs.log2 - 52)
    (mantissa_pos (natAbs_ne_zero_of_ne h))

theorem unpacked_zero : unpacked 0 = .zero .positive := dif_pos rfl

/-- A number other than zero is unpacked to its sign, its mantissa and how far that is shifted. -/
theorem unpacked_of_ne {n : Int} (h : n ≠ 0) : unpacked n = .finite (signOf n)
    (mantissa n.natAbs) (n.natAbs.log2 - 52) (mantissa_pos (natAbs_ne_zero_of_ne h)) := dif_neg h

/-- The opposite of a number differs in the sign only. -/
theorem unpacked_neg {n : Int} (h : n ≠ 0) : unpacked (-n) = .finite (-signOf n)
    (mantissa n.natAbs) (n.natAbs.log2 - 52) (mantissa_pos (natAbs_ne_zero_of_ne h)) := by
  have hsign : signOf (-n) = -signOf n := by
    unfold signOf
    rcases Int.lt_or_gt_of_ne h with hneg | hmore
    · rw [if_neg (by omega), if_pos hneg]
      rfl
    · rw [if_pos (by omega), if_neg (by omega)]
      rfl
  rw [unpacked_of_ne (Int.neg_ne_zero.2 h)]
  exact finite_congr hsign (by rw [Int.natAbs_neg]) (by rw [Int.natAbs_neg]) _ _

-- ================================================================= rounding

/-- Zeros behind a mantissa are cut off without a rest. -/
theorem shiftRight_exact (x i : Nat) :
    ExtendedMantissa.ofMantissaAndAccuracy (x * 2 ^ i) .exact >>> i
      = ExtendedMantissa.ofMantissaAndAccuracy x .exact := by
  show i.repeat ExtendedMantissa.shiftRightOne _ = _
  induction i generalizing x with
  | zero => rw [Nat.pow_zero, Nat.mul_one]; rfl
  | succ i ih =>
      rw [Nat.repeat, Nat.pow_succ, Nat.mul_comm (2 ^ i), ← Nat.mul_assoc, ih (x * 2)]
      have hhalf : x * 2 / 2 = x := Nat.mul_div_cancel x (by decide)
      have hrest : x * 2 % 2 = 0 := Nat.mul_mod_left x 2
      show ExtendedMantissa.mk (x * 2 / 2) (x * 2 % 2 != 0) (false || false) = _
      rw [hhalf, hrest]
      rfl

/-- What a number is rounded to is the exponent at which it keeps 53 digits, if it is not tiny. -/
theorem targetExponent_eq {m : Nat} {e t : Int} (h : (m.log2 : Int) + e = 52 + t)
    (ht : -1074 ≤ t) : Format.binary64.targetExponent (totalExponent m e) = t := by
  have hmin : Format.binary64.minExponent = -1074 := by decide
  have hbits : (Format.binary64.mantissaBits : Int) = 53 := by decide
  unfold Format.targetExponent totalExponent
  rw [hmin, hbits]
  omega

/-- A mantissa of 53 bits is found again, whatever number of zeros stands behind it. -/
theorem shiftToTargetExponent_exact {x : Nat} (hx : 2 ^ 52 ≤ x ∧ x < 2 ^ 53) (i : Nat) {t : Int}
    (ht : -1074 ≤ t) :
    UnpackedFloat.shiftToTargetExponent .binary64 (x * 2 ^ i) (t - i) .exact
      = (ExtendedMantissa.ofMantissaAndAccuracy x .exact, t) := by
  have htarget : Format.binary64.targetExponent (totalExponent (x * 2 ^ i) (t - i)) = t :=
    targetExponent_eq (by rw [log2_mul_pow (by omega), log2_eq_of_mantissa hx]; omega) ht
  have hshift : (t - (t - (i : Int))).toNat = i := by omega
  unfold UnpackedFloat.shiftToTargetExponent UnpackedFloat.shiftToExponent
  dsimp only
  rw [htarget, hshift, shiftRight_exact, Int.sub_add_cancel]

/-- A mantissa of 53 bits with zeros behind it is rounded to itself. -/
theorem roundWithAccuracy_exact (s : Sign) {x : Nat} (hx : 2 ^ 52 ≤ x ∧ x < 2 ^ 53)
    (hpos : 0 < x) (i : Nat) {t : Int} (ht : -1074 ≤ t) :
    UnpackedFloat.roundWithAccuracy .binary64 s (x * 2 ^ i) (t - i) .exact
      = .finite s x t hpos := by
  have hsecond : UnpackedFloat.shiftToTargetExponent .binary64 x t .exact
      = (ExtendedMantissa.ofMantissaAndAccuracy x .exact, t) := by
    have hnone := shiftToTargetExponent_exact hx 0 ht
    rwa [Nat.pow_zero, Nat.mul_one, Int.natCast_zero, Int.sub_zero] at hnone
  unfold UnpackedFloat.roundWithAccuracy
  rw [shiftToTargetExponent_exact hx i ht]
  -- what was rounded is shifted once more, in case that it grew
  show (match UnpackedFloat.shiftToTargetExponent .binary64 x t .exact with
    | (final, e) => if h : final.mantissa = 0 then UnpackedFloat.zero s
      else .finite s final.mantissa e (Nat.pos_of_ne_zero h)) = _
  rw [hsecond]
  exact dif_neg (show ¬ x = 0 by omega)

/-- What is a whole number of at most `2^53` in value is rounded to that number. -/
theorem round_whole (s : Sign) {m k j : Nat} (h : m * 2 ^ j = k * 2 ^ 52) (hne : k ≠ 0)
    (hk : k ≤ 2 ^ 53) : UnpackedFloat.round .binary64 s m (j - 52)
      = .finite s (mantissa k) (k.log2 - 52) (mantissa_pos hne) := by
  have hx := mantissa_bounds hne
  have hmul : m * 2 ^ j = mantissa k * 2 ^ k.log2 := h.trans (mantissa_mul hk).symm
  have hm : m ≠ 0 := by
    rintro rfl
    have hpos : 0 < mantissa k * 2 ^ k.log2 := Nat.mul_pos (mantissa_pos hne) (Nat.two_pow_pos _)
    omega
  have hlog : m.log2 + j = 52 + k.log2 := by
    rw [← log2_mul_pow hm, hmul, log2_mul_pow (mantissa_pos hne).ne', log2_eq_of_mantissa hx]
  have htarget : Format.binary64.targetExponent (totalExponent m (j - 52)) = k.log2 - 52 :=
    targetExponent_eq (by omega) (by omega)
  -- zeros are put behind the mantissa where it has too few bits
  have hdecrease : UnpackedFloat.decreaseExponent m (j - 52) (k.log2 - 52)
      = (mantissa k * 2 ^ (k.log2 - j), (k.log2 : Int) - 52 - ((k.log2 - j : Nat) : Int)) := by
    have hshift : ((j : Int) - 52 - (k.log2 - 52)).toNat = j - k.log2 := by omega
    have hmantissa : m * 2 ^ (j - k.log2) = mantissa k * 2 ^ (k.log2 - j) := by
      refine Nat.mul_right_cancel (Nat.two_pow_pos (min j k.log2)) ?_
      rw [Nat.mul_assoc, Nat.mul_assoc, ← Nat.pow_add, ← Nat.pow_add,
        show j - k.log2 + min j k.log2 = j by omega,
        show k.log2 - j + min j k.log2 = k.log2 by omega, hmul]
    unfold UnpackedFloat.decreaseExponent
    dsimp only
    rw [Nat.shiftLeft_eq, hshift, hmantissa]
    exact congrArg _ (by omega)
  unfold UnpackedFloat.round
  dsimp only
  rw [htarget, hdecrease]
  exact roundWithAccuracy_exact s hx (mantissa_pos hne) _ (by omega)

/-- The same for numbers with a sign. -/
theorem normalize_whole {z n : Int} {j : Nat} (h : z * 2 ^ j = n * 2 ^ 52)
    (hn : n.natAbs ≤ 2 ^ 53) :
    UnpackedFloat.normalize .binary64 z (j - 52) .positive = unpacked n := by
  have hpos : (0 : Int) < 2 ^ j := Int.pow_pos (by decide)
  have habs : z.natAbs * 2 ^ j = n.natAbs * 2 ^ 52 := by
    have hboth := congrArg Int.natAbs h
    rw [Int.natAbs_mul, Int.natAbs_mul, Int.natAbs_pow, Int.natAbs_pow] at hboth
    exact hboth
  unfold UnpackedFloat.normalize
  rcases Int.lt_trichotomy z 0 with hz | hz | hz
  · have hneg : n < 0 := by
      have hless : z * 2 ^ j < 0 := Int.mul_neg_of_neg_of_pos hz hpos
      omega
    rw [compare_lt_iff_lt.2 hz, unpacked_of_ne hneg.ne, show signOf n = .negative from if_pos hneg]
    have hmagnitude : (-z).toNat = z.natAbs := by omega
    show UnpackedFloat.round .binary64 .negative (-z).toNat (j - 52) = _
    rw [hmagnitude]
    exact round_whole .negative habs (by omega) hn
  · have hzero : n = 0 := by
      rw [hz, Int.zero_mul] at h
      omega
    rw [compare_eq_iff_eq.2 hz, hzero, unpacked_zero]
  · have hmore : 0 < n := by
      have hless : 0 < z * 2 ^ j := Int.mul_pos hz hpos
      omega
    rw [compare_gt_iff_gt.2 hz, unpacked_of_ne hmore.ne',
      show signOf n = .positive from if_neg (by omega)]
    have hmagnitude : z.toNat = z.natAbs := by omega
    show UnpackedFloat.round .binary64 .positive z.toNat (j - 52) = _
    rw [hmagnitude]
    exact round_whole .positive habs (by omega) hn

-- ================================================================ arithmetic

/-- A whole number at a smaller exponent. -/
theorem apply_decreaseExponent {n : Int} (hn : n.natAbs ≤ 2 ^ 53) {j : Nat}
    (hj : j ≤ n.natAbs.log2) :
    (signOf n).apply ((UnpackedFloat.decreaseExponent (mantissa n.natAbs)
      (n.natAbs.log2 - 52) (j - 52)).1) * 2 ^ j = n * 2 ^ 52 := by
  have hshift : ((n.natAbs.log2 : Int) - 52 - (j - 52)).toNat = n.natAbs.log2 - j := by omega
  have hmantissa : mantissa n.natAbs * 2 ^ (n.natAbs.log2 - j) * 2 ^ j = n.natAbs * 2 ^ 52 := by
    rw [Nat.mul_assoc, ← Nat.pow_add, Nat.sub_add_cancel hj, mantissa_mul hn]
  have happly : ∀ (s : Sign) (x y : Nat), s.apply x * y = s.apply (x * y : Nat) := by
    intro s x y
    cases s with
    | negative => show -(x : Int) * y = -((x * y : Nat) : Int); rw [Int.neg_mul, Int.natCast_mul]
    | positive => exact (Int.natCast_mul x y).symm
  have hpow : ((2 : Int) ^ j) = ((2 ^ j : Nat) : Int) := (Int.natCast_pow 2 j).symm
  unfold UnpackedFloat.decreaseExponent
  dsimp only
  rw [Nat.shiftLeft_eq, hshift, hpow, happly, hmantissa, ← happly, apply_signOf]
  rfl

/-- The exponent at which two whole numbers meet. -/
theorem min_exponents (a b : Int) : min ((a.natAbs.log2 : Int) - 52) (b.natAbs.log2 - 52)
    = (min a.natAbs.log2 b.natAbs.log2 : Nat) - 52 := by omega

section Arithmetic

variable {a b : Int} (ha : a.natAbs ≤ 2 ^ 53) (hb : b.natAbs ≤ 2 ^ 53)
include ha hb

/-- Small whole numbers are added without rounding. -/
theorem add_unpacked (h : (a + b).natAbs ≤ 2 ^ 53) :
    UnpackedFloat.add .binary64 (unpacked a) (unpacked b) = unpacked (a + b) := by
  by_cases hazero : a = 0
  · rw [hazero, Int.zero_add, unpacked_zero]
    by_cases hbzero : b = 0
    · rw [hbzero, unpacked_zero]
      rfl
    · rw [unpacked_of_ne hbzero]
      rfl
  · by_cases hbzero : b = 0
    · rw [hbzero, Int.add_zero, unpacked_zero, unpacked_of_ne hazero]
      rfl
    · rw [unpacked_of_ne hazero, unpacked_of_ne hbzero]
      unfold UnpackedFloat.add
      dsimp only
      rw [min_exponents]
      refine normalize_whole ?_ h
      rw [Int.add_mul, apply_decreaseExponent ha (Nat.min_le_left ..),
        apply_decreaseExponent hb (Nat.min_le_right ..), Int.add_mul]

/-- Small whole numbers are subtracted without rounding. -/
theorem sub_unpacked (h : (a - b).natAbs ≤ 2 ^ 53) :
    UnpackedFloat.sub .binary64 (unpacked a) (unpacked b) = unpacked (a - b) := by
  by_cases hazero : a = 0
  · rw [hazero, Int.zero_sub, unpacked_zero]
    by_cases hbzero : b = 0
    · rw [hbzero, unpacked_zero]
      rfl
    · rw [unpacked_of_ne hbzero, unpacked_neg hbzero]
      rfl
  · by_cases hbzero : b = 0
    · rw [hbzero, Int.sub_zero, unpacked_zero, unpacked_of_ne hazero]
      rfl
    · rw [unpacked_of_ne hazero, unpacked_of_ne hbzero]
      unfold UnpackedFloat.sub
      dsimp only
      rw [min_exponents]
      refine normalize_whole ?_ h
      rw [Int.sub_mul, apply_decreaseExponent ha (Nat.min_le_left ..),
        apply_decreaseExponent hb (Nat.min_le_right ..), Int.sub_mul]

end Arithmetic

-- ===================================================================== bits

/-- Bits in a row, read as a number. -/
theorem toNat_append_eq {v w : Nat} (x : BitVec w) (y : BitVec v) :
    (x ++ y).toNat = x.toNat * 2 ^ v + y.toNat := by
  rw [BitVec.toNat_append, ← Nat.shiftLeft_add_eq_or_of_lt y.isLt, Nat.shiftLeft_eq]

/-- The first bit is that of the sign. -/
theorem unpackSign_packComponents (s : Sign) (exponent : BitVec 11) (fraction : BitVec 52) :
    UnpackedFloat.unpackSign (UnpackedFloat.packComponents .binary64 s exponent fraction)
      = s.toBitVec := by
  have hsign : s.toBitVec.toNat < 2 := s.toBitVec.isLt
  have hexponent : exponent.toNat < 2 ^ 11 := exponent.isLt
  have hfraction : fraction.toNat < 2 ^ 52 := fraction.isLt
  apply BitVec.eq_of_toNat_eq
  unfold UnpackedFloat.unpackSign UnpackedFloat.packComponents
  rw [BitVec.toNat_cast, BitVec.extractLsb_toNat, toNat_append_eq, toNat_append_eq,
    Nat.shiftRight_eq_div_pow]
  show ((s.toBitVec.toNat * 2 ^ 11 + exponent.toNat) * 2 ^ 52 + fraction.toNat) / 2 ^ 63 % 2 = _
  omega

/-- Bits with an exponent between the least and the greatest have a leading bit. -/
theorem unpack_of_normal {bits : BitVec Format.binary64.numBits}
    (hinfinity : UnpackedFloat.unpackExponent bits ≠ -1#11)
    (hzero : UnpackedFloat.unpackExponent bits ≠ 0#11) :
    UnpackedFloat.unpack .binary64 bits = .finite (Sign.ofBitVec (UnpackedFloat.unpackSign bits))
      (1#1 ++ UnpackedFloat.unpackMantissa bits).toNat
      (((UnpackedFloat.unpackExponent bits).toNat : Int) -
        (Format.binary64.exponentBias + Format.binary64.mantissaBitsWithoutImplicit))
      (by
        rw [toNat_append_eq]
        exact Nat.add_pos_left (Nat.mul_pos Nat.one_pos (Nat.two_pow_pos _)) _) := by
  unfold UnpackedFloat.unpack
  dsimp only
  rw [if_neg hinfinity, if_neg hzero]

section Packed

variable (s : Sign) {x b : Nat} (hx : 2 ^ 52 ≤ x ∧ x < 2 ^ 53) (hpos : 0 < x) (hlow : 0 < b)
  (hhigh : b < 2047)
include hx hlow hhigh

/-- A mantissa of 53 bits is packed with its exponent, which is stored as a natural. -/
theorem pack_finite : UnpackedFloat.pack .binary64 (.finite s x (b - 1075) hpos)
    = UnpackedFloat.packComponents .binary64 s (BitVec.ofNat 11 b) (BitVec.ofNat 52 x) := by
  have hbiased : ((b : Int) - 1075 + Format.binary64.exponentBias +
      Format.binary64.mantissaBitsWithoutImplicit).toNat = b := by
    have hbias : (Format.binary64.exponentBias : Int) = 1023 := by decide
    rw [hbias]
    show ((b : Int) - 1075 + 1023 + 52).toNat = b
    omega
  have hbits : Format.binary64.mantissaBits = 53 := by decide
  unfold UnpackedFloat.pack
  dsimp only
  rw [hbiased, log2_eq_of_mantissa hx, hbits, if_neg (by omega), if_pos rfl]

/-- What is packed, as a number. The mantissa adds its leading one to the exponent, which is
therefore one less. -/
theorem toNat_pack : (UnpackedFloat.pack .binary64 (.finite s x (b - 1075) hpos)).toNat
    = s.toBitVec.toNat * 2 ^ 63 + (b - 1) * 2 ^ 52 + x := by
  have hfraction : (BitVec.ofNat 52 x).toNat = x - 2 ^ 52 := by
    rw [BitVec.toNat_ofNat]
    omega
  have hexponent : (BitVec.ofNat 11 b).toNat = b := by
    rw [BitVec.toNat_ofNat]
    omega
  rw [pack_finite s hx hpos hlow hhigh]
  unfold UnpackedFloat.packComponents
  rw [toNat_append_eq, toNat_append_eq, hfraction, hexponent]
  show (s.toBitVec.toNat * 2 ^ 11 + b) * 2 ^ 52 + _ = _
  omega

/-- What is packed is unpacked to what it was. -/
theorem unpack_pack : UnpackedFloat.unpack .binary64
    (UnpackedFloat.pack .binary64 (.finite s x (b - 1075) hpos))
      = .finite s x (b - 1075) hpos := by
  have hexponent : (BitVec.ofNat 11 b).toNat = b := by
    rw [BitVec.toNat_ofNat]
    omega
  have hinfinity : BitVec.ofNat 11 b ≠ -1#11 := by
    intro h
    have hall : (-1#11 : BitVec 11).toNat = 2047 := by decide
    rw [← h, hexponent] at hall
    omega
  have hzero : BitVec.ofNat 11 b ≠ 0#11 := by
    intro h
    have hnone : (0#11 : BitVec 11).toNat = 0 := by decide
    rw [← h, hexponent] at hnone
    omega
  have hmantissa : (1#1 ++ BitVec.ofNat 52 x).toNat = x := by
    rw [toNat_append_eq, BitVec.toNat_ofNat, BitVec.toNat_ofNat]
    omega
  have hsign : Sign.ofBitVec s.toBitVec = s := by cases s <;> rfl
  have hbias : (Format.binary64.exponentBias : Int) = 1023 := by decide
  rw [pack_finite s hx hpos hlow hhigh, unpack_of_normal
    (by rw [UnpackedFloat.unpackExponent_packComponents]; exact hinfinity)
    (by rw [UnpackedFloat.unpackExponent_packComponents]; exact hzero)]
  refine finite_congr ?_ ?_ ?_ _ _
  · rw [unpackSign_packComponents, hsign]
  · rw [UnpackedFloat.unpackMantissa_packComponents, hmantissa]
  · rw [UnpackedFloat.unpackExponent_packComponents, hexponent, hbias]
    rfl

end Packed

-- ======================================================== what is stored

/-- Numbers up to `2^53` have at most 54 binary digits. -/
theorem log2_le_of_le {k : Nat} (hk : k ≤ 2 ^ 53) : k.log2 ≤ 53 := by
  by_cases hzero : k = 0
  · rw [hzero]
    decide
  · have hbits : k.log2 < 54 := (Nat.log2_lt hzero).2 (by omega)
    omega

/-- The first guess at the exponent of a whole number is right. -/
private theorem pow_log2_le {n : Nat} (hn : n ≠ 0) (k : Nat) :
    1 * Nat.pow 2 (n.log2 + k) ≤ n * Nat.pow 2 k := by
  have hsplit : Nat.pow 2 (n.log2 + k) = Nat.pow 2 n.log2 * Nat.pow 2 k := Nat.pow_add 2 n.log2 k
  rw [Nat.one_mul, hsplit]
  exact Nat.mul_le_mul_right _ (Nat.log2_self_le hn)

/-- The exponent field of a whole number tells how many binary digits it has. -/
theorem exponentOf_one {n : Nat} (hn : n ≠ 0) : exponentOf n 1 = n.log2 + 1022 := by
  have hone : Nat.log2 1 = 0 := by decide
  unfold exponentOf
  rw [hone, Nat.sub_zero]
  generalize (1022 : Nat) = k
  exact if_neg (Nat.not_lt.2 (pow_log2_le hn k))

/-- Division that comes out even is not rounded. -/
theorem roundDiv_exact (x : Nat) {den : Nat} (hden : 0 < den) : roundDiv (x * den) den = x := by
  unfold roundDiv
  dsimp only
  rw [Nat.mul_div_cancel x hden, Nat.mul_mod_left]
  exact if_pos hden

/-- The bits of a small whole number, which is not rounded. -/
theorem nearestBits_whole {k : Nat} (hne : k ≠ 0) (hk : k ≤ 2 ^ 53) :
    nearestBits k 1 = (k.log2 + 1022) * 2 ^ 52 + mantissa k := by
  have hround : ∀ q,
      roundDiv (k * Nat.pow 2 (52 + q)) (1 * Nat.pow 2 (k.log2 + q)) = mantissa k := by
    intro q
    have hscaled : k * Nat.pow 2 (52 + q) = mantissa k * Nat.pow 2 (k.log2 + q) := by
      show k * 2 ^ (52 + q) = mantissa k * 2 ^ (k.log2 + q)
      rw [Nat.pow_add, Nat.pow_add, ← Nat.mul_assoc, ← Nat.mul_assoc, mantissa_mul hk]
    rw [hscaled, Nat.one_mul]
    exact roundDiv_exact _ (Nat.two_pow_pos _)
  have hshift : (1074 : Nat) = 52 + 1022 := rfl
  have hbits := log2_le_of_le hk
  have hmantissa := (mantissa_bounds hne).2
  unfold nearestBits infinityBits
  rw [if_neg hne]
  dsimp only
  rw [exponentOf_one hne, hshift, hround 1022]
  refine Nat.min_eq_right ?_
  show (k.log2 + 1022) * 2 ^ 52 + mantissa k ≤ 2047 * 2 ^ 52
  omega

/-- A number other than zero, unpacked as what its exponent field tells. -/
theorem unpacked_eq_finite {n : Int} (hne : n ≠ 0) : unpacked n = .finite (signOf n)
    (mantissa n.natAbs) ((n.natAbs.log2 + 1023 : Nat) - 1075)
    (mantissa_pos (natAbs_ne_zero_of_ne hne)) :=
  (unpacked_of_ne hne).trans (finite_congr rfl rfl (by omega) _ _)

section Stored

variable {n : Int} (hn : n.natAbs ≤ 2 ^ 53)
include hn

/-- A number that is stored is unpacked to what it was. -/
theorem unpack_pack_unpacked :
    UnpackedFloat.unpack .binary64 (UnpackedFloat.pack .binary64 (unpacked n)) = unpacked n := by
  by_cases hzero : n = 0
  · rw [hzero, unpacked_zero]
    rfl
  · have hbits := log2_le_of_le hn
    rw [unpacked_eq_finite hzero]
    exact unpack_pack _ (mantissa_bounds (natAbs_ne_zero_of_ne hzero)) _ (by omega) (by omega)

/-- The bits of a whole number are those of its parts. -/
theorem toNat_pack_unpacked : (UnpackedFloat.pack .binary64 (unpacked n)).toNat
    = if n < 0 then Nat.pow 2 63 + nearestBits n.natAbs 1 else nearestBits n.natAbs 1 := by
  by_cases hzero : n = 0
  · rw [hzero, unpacked_zero]
    rfl
  · have hbits := log2_le_of_le hn
    have hne := natAbs_ne_zero_of_ne hzero
    rw [unpacked_eq_finite hzero, toNat_pack _ (mantissa_bounds hne) _ (by omega) (by omega),
      nearestBits_whole hne hn]
    unfold signOf
    split
    · show 1 * 2 ^ 63 + _ + _ = 2 ^ 63 + _
      omega
    · show 0 * 2 ^ 63 + _ + _ = _
      omega

/-- A stored whole number is the one of its parts. -/
theorem nearestInt_eq : nearestInt n = .ofModel (.pack (unpacked n)) := by
  let bits := if n < 0 then Nat.pow 2 63 + nearestBits n.natAbs 1 else nearestBits n.natAbs 1
  have hbits : (UInt64.ofNat bits).toBitVec = UnpackedFloat.pack .binary64 (unpacked n) := by
    apply BitVec.eq_of_toNat_eq
    rw [toNat_pack_unpacked hn]
    have hless : bits < 2 ^ 64 := by
      show (if n < 0 then _ else _) < _
      rw [← toNat_pack_unpacked hn]
      exact BitVec.isLt _
    exact Nat.mod_eq_of_lt hless
  have hopen : nearestInt n = .ofModel (.pack (UnpackedFloat.unpack .binary64
      (UInt64.ofNat bits).toBitVec)) := by
    show nearest (decide (n < 0)) n.natAbs 1 = _
    unfold nearest
    simp only [decide_eq_true_eq]
    rfl
  rw [hopen, hbits, unpack_pack_unpacked hn]

/-- The bits that are stored are those of the nearest double, and the sign in front. -/
theorem toBits_nearestInt : (nearestInt n).toBits.toNat
    = if n < 0 then Nat.pow 2 63 + nearestBits n.natAbs 1 else nearestBits n.natAbs 1 := by
  rw [nearestInt_eq hn, ← toNat_pack_unpacked hn]
  rfl

/-- A stored whole number is a fraction of that value. -/
theorem fraction?_nearestInt (hne : n ≠ 0) :
    fraction? (nearestInt n) = some (n * (2 ^ (52 - n.natAbs.log2) : Nat),
      2 ^ (52 - n.natAbs.log2)) := by
  have hk := natAbs_ne_zero_of_ne hne
  have hlog := log2_le_of_le hn
  have hmantissa := mantissa_bounds hk
  have hbits := toBits_nearestInt hn
  rw [nearestBits_whole hk hn] at hbits
  -- the sign is the first bit, the exponent the next eleven
  have hsign : (nearestInt n).toBits.toNat < Nat.pow 2 63 ↔ ¬ n < 0 := by
    rw [hbits]
    show _ < 2 ^ 63 ↔ _
    have hpow : Nat.pow 2 63 = 2 ^ 63 := rfl
    split <;> omega
  have hmagnitude : (nearestInt n).toBits.toNat % Nat.pow 2 63
      = (n.natAbs.log2 + 1022) * 2 ^ 52 + mantissa n.natAbs := by
    rw [hbits]
    show _ % 2 ^ 63 = _
    have hpow : Nat.pow 2 63 = 2 ^ 63 := rfl
    split <;> omega
  have hstored : ((n.natAbs.log2 + 1022) * 2 ^ 52 + mantissa n.natAbs) / Nat.pow 2 52
      = n.natAbs.log2 + 1023 := by
    show _ / 2 ^ 52 = _
    omega
  have hrest : Nat.pow 2 52 + ((n.natAbs.log2 + 1022) * 2 ^ 52 + mantissa n.natAbs) % Nat.pow 2 52
      = mantissa n.natAbs := by
    show 2 ^ 52 + _ % 2 ^ 52 = _
    omega
  have hscaled : mantissa n.natAbs * 2 ^ (n.natAbs.log2 - 52)
      = n.natAbs * 2 ^ (52 - n.natAbs.log2) := by
    refine Nat.mul_right_cancel (Nat.two_pow_pos (min n.natAbs.log2 52)) ?_
    rw [Nat.mul_assoc, Nat.mul_assoc, ← Nat.pow_add, ← Nat.pow_add,
      show n.natAbs.log2 - 52 + min n.natAbs.log2 52 = n.natAbs.log2 by omega,
      show 52 - n.natAbs.log2 + min n.natAbs.log2 52 = 52 by omega, mantissa_mul hn]
  unfold fraction?
  dsimp only
  rw [hmagnitude, hstored, if_neg (show ¬ n.natAbs.log2 + 1023 = 0 by omega), hrest,
    if_neg (show ¬ n.natAbs.log2 + 1023 = 0x7ff by omega),
    show n.natAbs.log2 + 1023 - 1075 = n.natAbs.log2 - 52 by omega,
    show 1075 - max (n.natAbs.log2 + 1023) 1 = 52 - n.natAbs.log2 by omega]
  show some (_ * ((mantissa n.natAbs * 2 ^ (n.natAbs.log2 - 52) : Nat) : Int), _) = _
  rw [hscaled, Int.natCast_mul, ← Int.mul_assoc]
  have hvalue : (if (nearestInt n).toBits.toNat < Nat.pow 2 63 then (1 : Int) else -1) * n.natAbs
      = n := by
    by_cases hneg : n < 0
    · rw [if_neg (fun h => hsign.1 h hneg)]
      omega
    · rw [if_pos (hsign.2 hneg)]
      omega
  rw [hvalue]
  rfl

omit hn in
/-- Zero is stored as nothing over something. -/
theorem fraction?_zero : ∃ den, fraction? (nearestInt 0) = some (0, den) := by
  have hbits : (nearestInt 0).toBits.toNat = 0 := toBits_nearestInt (Nat.zero_le _)
  refine ⟨Nat.pow 2 (1075 - max 0 1), ?_⟩
  unfold fraction?
  dsimp only
  rw [hbits, Nat.zero_mod, Nat.zero_div, if_pos rfl, if_neg (by decide), Nat.zero_mul,
    Int.natCast_zero, Int.mul_zero]

/-- A stored whole number of at most `2^53` is that number. -/
theorem whole?_nearestInt : whole? (nearestInt n) = some n := by
  unfold whole?
  by_cases hzero : n = 0
  · obtain ⟨den, hfraction⟩ := fraction?_zero
    rw [hzero, hfraction]
    dsimp only
    rw [if_pos (Int.zero_emod _), Int.zero_ediv]
  · rw [fraction?_nearestInt hn hzero]
    have hpos : ((2 ^ (52 - n.natAbs.log2) : Nat) : Int) ≠ 0 :=
      Int.natCast_ne_zero.2 (Nat.two_pow_pos _).ne'
    dsimp only
    rw [if_pos (Int.mul_emod_left _ _), Int.mul_ediv_cancel _ hpos]

end Stored

-- ============================================================ sums and differences

section Sums

variable {a b : Int} (ha : a.natAbs ≤ 2 ^ 53) (hb : b.natAbs ≤ 2 ^ 53)
include ha hb

/-- Sums of doubles that hold small whole numbers are exact. -/
theorem nearestInt_add (h : (a + b).natAbs ≤ 2 ^ 53) :
    nearestInt a + nearestInt b = nearestInt (a + b) := by
  have hopen : ∀ x y : UnpackedFloat, Float.ofModel (.pack x) + .ofModel (.pack y)
      = .ofModel (.pack (UnpackedFloat.add .binary64
        (UnpackedFloat.unpack .binary64 (UnpackedFloat.pack .binary64 x))
        (UnpackedFloat.unpack .binary64 (UnpackedFloat.pack .binary64 y)))) := fun _ _ => rfl
  rw [nearestInt_eq ha, nearestInt_eq hb, nearestInt_eq h, hopen, unpack_pack_unpacked ha,
    unpack_pack_unpacked hb, add_unpacked ha hb h]

/-- Differences of doubles that hold small whole numbers are exact. -/
theorem nearestInt_sub (h : (a - b).natAbs ≤ 2 ^ 53) :
    nearestInt a - nearestInt b = nearestInt (a - b) := by
  have hopen : ∀ x y : UnpackedFloat, Float.ofModel (.pack x) - .ofModel (.pack y)
      = .ofModel (.pack (UnpackedFloat.sub .binary64
        (UnpackedFloat.unpack .binary64 (UnpackedFloat.pack .binary64 x))
        (UnpackedFloat.unpack .binary64 (UnpackedFloat.pack .binary64 y)))) := fun _ _ => rfl
  rw [nearestInt_eq ha, nearestInt_eq hb, nearestInt_eq h, hopen, unpack_pack_unpacked ha,
    unpack_pack_unpacked hb, sub_unpacked ha hb h]

end Sums

end SystemMap.Decimal
