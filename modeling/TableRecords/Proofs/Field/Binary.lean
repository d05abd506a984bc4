import Mathlib
import TableRecords.Field.Binary

/-!
# Binary numbers and zero

An integer other than zero stays apart from zero in both formats, and so does a binary32 number
that becomes one of binary64.  A full mantissa, one with all digits of the format, is what rounding
gives unless a number is too small for it (`round_full`), and it is not stored as zero
(`unpack_pack_ne_zero`).

    n ≠ 0 → (ofInt64 n == 0) = false                                   (ofInt64_beq_zero)
    n ≠ 0 → (widen (narrowOfInt64 n) == 0) = false       (widen_narrowOfInt64_beq_zero)
-/

namespace TableRecords.Binary

open Float.Model (Format UnpackedFloat totalExponent)
open Float.Model.UnpackedFloat

/-! ## Digits -/

theorem log2_div_two_pow {m k : Nat} (hm : m ≠ 0) (hk : k ≤ m.log2) :
    m / 2 ^ k ≠ 0 ∧ (m / 2 ^ k).log2 = m.log2 - k := by
  have hsplit : 2 ^ m.log2 = 2 ^ (m.log2 - k) * 2 ^ k := by
    rw [← Nat.pow_add, Nat.sub_add_cancel hk]
  have hle : 2 ^ (m.log2 - k) ≤ m / 2 ^ k := by
    rw [Nat.le_div_iff_mul_le (Nat.two_pow_pos k), ← hsplit]
    exact Nat.log2_self_le hm
  have hlt : m / 2 ^ k < 2 ^ (m.log2 - k + 1) := by
    rw [Nat.div_lt_iff_lt_mul (Nat.two_pow_pos k), Nat.pow_succ, Nat.mul_right_comm, ← hsplit,
      ← Nat.pow_succ]
    exact Nat.lt_log2_self
  have hne : m / 2 ^ k ≠ 0 := by
    have := Nat.two_pow_pos (m.log2 - k)
    omega
  exact ⟨hne, (Nat.log2_eq_iff hne).2 ⟨hle, hlt⟩⟩

theorem log2_shiftLeft {m : Nat} (hm : m ≠ 0) (k : Nat) :
    m <<< k ≠ 0 ∧ (m <<< k).log2 = m.log2 + k := by
  induction k with
  | zero => exact ⟨hm, rfl⟩
  | succ k ih =>
    rw [Nat.shiftLeft_succ, Nat.log2_two_mul ih.1, ih.2]
    omega

theorem mantissa_shiftRight (em : ExtendedMantissa) (n : Nat) :
    (em >>> n).mantissa = em.mantissa / 2 ^ n := by
  show (n.repeat ExtendedMantissa.shiftRightOne em).mantissa = _
  induction n with
  | zero => simp [Nat.repeat]
  | succ n ih =>
    show (n.repeat ExtendedMantissa.shiftRightOne em).mantissa / 2 = _
    rw [ih, Nat.div_div_eq_div_mul, Nat.pow_succ]

/-- Rounding never makes a mantissa smaller. -/
theorem mantissa_le_roundedMantissa (em : ExtendedMantissa) :
    em.mantissa ≤ em.roundedMantissa := by
  unfold ExtendedMantissa.roundedMantissa Accuracy.roundToNearestEven
  split <;> omega

/-! ## Rounding -/

/-- A mantissa with enough digits is cut down to the digits of the format. -/
theorem shiftToTargetExponent_full {format : Format} {m : Nat} {e : Int} (a : Accuracy)
    (hm : m ≠ 0) (hdigits : format.mantissaBitsWithoutImplicit ≤ m.log2)
    (h : format.minExponent + format.mantissaBits ≤ totalExponent m e) :
    ∃ em, shiftToTargetExponent format m e a =
        (em, totalExponent m e - format.mantissaBits) ∧
      em.mantissa ≠ 0 ∧ em.mantissa.log2 = format.mantissaBitsWithoutImplicit := by
  have htarget : format.targetExponent (totalExponent m e) =
      totalExponent m e - format.mantissaBits := by
    unfold Format.targetExponent
    omega
  have hshift : (totalExponent m e - format.mantissaBits - e).toNat =
      m.log2 - format.mantissaBitsWithoutImplicit := by
    unfold totalExponent Format.mantissaBits
    omega
  have hexponent : e + ((m.log2 - format.mantissaBitsWithoutImplicit : Nat) : Int) =
      totalExponent m e - format.mantissaBits := by
    unfold totalExponent Format.mantissaBits
    omega
  obtain ⟨hne, hlog⟩ := log2_div_two_pow hm (Nat.sub_le m.log2 format.mantissaBitsWithoutImplicit)
  have hmantissa : (ExtendedMantissa.ofMantissaAndAccuracy m a >>>
      (m.log2 - format.mantissaBitsWithoutImplicit)).mantissa =
      m / 2 ^ (m.log2 - format.mantissaBitsWithoutImplicit) := by
    rw [mantissa_shiftRight]
    congr 1
    unfold ExtendedMantissa.ofMantissaAndAccuracy
    split <;> rfl
  refine ⟨ExtendedMantissa.ofMantissaAndAccuracy m a >>>
    (m.log2 - format.mantissaBitsWithoutImplicit), ?_, ?_, ?_⟩
  · simp only [shiftToTargetExponent, shiftToExponent, htarget, hshift, hexponent]
  · rw [hmantissa]
    exact hne
  · rw [hmantissa, hlog]
    omega

/-- Whatever is not too small for the full mantissa is rounded to a full mantissa. -/
theorem round_full {format : Format} (s : Sign) {m : Nat} {e : Int} (hm : m ≠ 0)
    (h : format.minExponent + format.mantissaBits ≤ totalExponent m e) :
    ∃ m' e' hm', round format s m e = .finite s m' e' hm' ∧
      m'.log2 = format.mantissaBitsWithoutImplicit ∧ format.minExponent ≤ e' := by
  have htarget : format.targetExponent (totalExponent m e) =
      totalExponent m e - format.mantissaBits := by
    unfold Format.targetExponent
    omega
  generalize hk : (e - (totalExponent m e - format.mantissaBits)).toNat = k
  obtain ⟨hne, hlog⟩ := log2_shiftLeft hm k
  have htotal : totalExponent (m <<< k) (e - k) = totalExponent m e := by
    unfold totalExponent
    omega
  have hdigits : format.mantissaBitsWithoutImplicit ≤ (m <<< k).log2 := by
    unfold totalExponent Format.mantissaBits at hk
    omega
  obtain ⟨em, hfirst, hem, hemlog⟩ :=
    shiftToTargetExponent_full .exact hne hdigits (htotal ▸ h)
  have hle := mantissa_le_roundedMantissa em
  have hrounded : em.roundedMantissa ≠ 0 := by omega
  have hroundedLog : format.mantissaBitsWithoutImplicit ≤ em.roundedMantissa.log2 := by
    rw [Nat.le_log2 hrounded, ← hemlog]
    exact Nat.le_trans (Nat.log2_self_le hem) hle
  have hsecond : format.minExponent + format.mantissaBits ≤
      totalExponent em.roundedMantissa (totalExponent (m <<< k) (e - k) - format.mantissaBits) := by
    rw [htotal]
    unfold totalExponent Format.mantissaBits at *
    omega
  obtain ⟨em', hfinal, hem', hemlog'⟩ :=
    shiftToTargetExponent_full .exact hrounded hroundedLog hsecond
  refine ⟨em'.mantissa, totalExponent em.roundedMantissa
    (totalExponent (m <<< k) (e - k) - format.mantissaBits) - format.mantissaBits,
    Nat.pos_of_ne_zero hem', ?_, hemlog', ?_⟩
  · simp only [UnpackedFloat.round, decreaseExponent, htarget, hk, roundWithAccuracy, hfirst,
      hfinal]
    rw [dif_neg hem']
  · omega

/-! ## Storing -/

/-- The least exponent is stored as one; zero is left for the numbers below a full mantissa. -/
theorem minExponent_stored (format : Format) : format.minExponent +
    format.exponentBias + format.mantissaBitsWithoutImplicit = 1 := by
  have hpow := Nat.two_pow_pos (format.exponentBits - 1)
  have hbias : (format.exponentBias : Int) = 2 ^ (format.exponentBits - 1) - 1 := by
    rw [Format.exponentBias, Int.natCast_sub hpow]
    simp
  unfold Format.minExponent Format.mantissaBits
  omega

theorem neg_one_ne_zero (format : Format) : (-1#_ : BitVec format.exponentBits) ≠ 0#_ := by
  have hone : 1 < 2 ^ format.exponentBits := Nat.one_lt_two_pow (Nat.ne_of_gt format.he)
  rw [BitVec.neg_one_eq_allOnes, ne_eq, ← BitVec.toNat_inj, BitVec.toNat_allOnes,
    BitVec.toNat_zero]
  omega

theorem unpack_ne_zero {format : Format} {b : BitVec format.numBits}
    (h : unpackExponent b ≠ 0#_) (s : Sign) : unpack format b ≠ .zero s := by
  simp only [unpack, if_neg h]
  split
  · split <;> simp
  · simp

/-- A full mantissa is not taken for zero. -/
theorem unpack_pack_ne_zero {format : Format} (s : Sign) {m : Nat} {e : Int} (hm : 0 < m)
    (hdigits : m.log2 = format.mantissaBitsWithoutImplicit) (he : format.minExponent ≤ e)
    (s' : Sign) : unpack format (pack format (.finite s m e hm)) ≠ .zero s' := by
  have hmin := minExponent_stored format
  apply unpack_ne_zero
  simp only [pack, hdigits, Format.mantissaBits, Nat.add_comm, if_true]
  split
  · rw [packedInfinity, unpackExponent_packComponents]
    exact neg_one_ne_zero format
  · rw [unpackExponent_packComponents, ne_eq, ← BitVec.toNat_inj, BitVec.toNat_ofNat,
      BitVec.toNat_zero, Nat.mod_eq_of_lt (by omega)]
    omega

/-! ## Top theorems -/

/-- No integer but zero becomes zero. -/
theorem unpack_ofInt_ne_zero {format : Format}
    (hformat : format.minExponent + format.mantissaBits ≤ 0)
    {n : Int} (hn : n ≠ 0) (s : Sign) :
    unpack format (pack format (UnpackedFloat.ofInt format n)) ≠ .zero s := by
  have hround : ∀ (s' : Sign) {m : Nat}, m ≠ 0 →
      unpack format (pack format (round format s' m 0)) ≠ .zero s := by
    intro s' m hm
    have htotal : format.minExponent + format.mantissaBits ≤ totalExponent m 0 := by
      unfold totalExponent
      omega
    obtain ⟨m', e', hm', hfull, hdigits, he⟩ := round_full s' hm htotal
    rw [hfull]
    exact unpack_pack_ne_zero s' hm' hdigits he s
  unfold UnpackedFloat.ofInt UnpackedFloat.normalize
  split
  · next h => exact hround .negative (by have := Int.compare_eq_lt.1 h; omega)
  · next h => exact absurd (Int.compare_eq_eq.1 h) hn
  · next h => exact hround .positive (by have := Int.compare_eq_gt.1 h; omega)

theorem minExponent_le_of_unpack {format : Format} {b : BitVec format.numBits} {s : Sign} {m : Nat}
    {e : Int} {hm : 0 < m} (h : unpack format b = .finite s m e hm) : format.minExponent ≤ e := by
  have hmin := minExponent_stored format
  simp only [unpack] at h
  split at h
  · split at h <;> simp at h
  · split at h
    · split at h
      · simp at h
      · injection h
        omega
    · next hne =>
      have hpos : (unpackExponent b).toNat ≠ 0 := by
        rwa [← BitVec.toNat_inj, BitVec.toNat_zero] at hne
      injection h
      omega

/-- The step to binary64 keeps a number apart from zero. -/
theorem unpack_widen_ne_zero {x : Float32} (hx : ∀ s, x.toModel.unpack ≠ .zero s) (s : Sign) :
    (widen x).toModel.unpack ≠ .zero s := by
  show unpack .binary64 (pack .binary64 (rounded .binary64 x.toModel.unpack)) ≠ .zero s
  cases hunpack : x.toModel.unpack with
  | zero s' => exact absurd hunpack (hx s')
  | notANumber =>
    apply unpack_ne_zero
    rw [rounded, pack, packedNaN, unpackExponent_packComponents]
    · exact neg_one_ne_zero .binary64
    · simp
  | infinity s' =>
    apply unpack_ne_zero
    rw [rounded, pack, packedInfinity, unpackExponent_packComponents]
    · exact neg_one_ne_zero .binary64
    · simp
  | finite s' m e hm =>
    have he : Format.binary32.minExponent ≤ e := minExponent_le_of_unpack hunpack
    have htotal : Format.binary64.minExponent + Format.binary64.mantissaBits ≤
        totalExponent m e := by
      have : Format.binary64.minExponent + Format.binary64.mantissaBits ≤
        Format.binary32.minExponent := by decide
      unfold totalExponent
      omega
    obtain ⟨m', e', hm', hfull, hdigits, he'⟩ := round_full s' (Nat.ne_of_gt hm) htotal
    rw [rounded, hfull]
    exact unpack_pack_ne_zero s' hm' hdigits he' s

theorem beq_zero_iff (x : Float) : (x == 0) = true ↔ ∃ s, x.toModel.unpack = .zero s := by
  have hzero : (0 : Float).toModel.unpack = .zero .positive := rfl
  show (x.toModel.unpack.compare (0 : Float).toModel.unpack == some .eq) = true ↔ _
  rw [hzero]
  cases x.toModel.unpack with
  | notANumber => simp [UnpackedFloat.compare]
  | infinity s => cases s <;> simp [UnpackedFloat.compare]
  | zero s => simp [UnpackedFloat.compare]
  | finite s m e hm => cases s <;> simp [UnpackedFloat.compare]

theorem unpack_ofInt64 (n : Int64) : (ofInt64 n).toModel.unpack =
    unpack .binary64 (pack .binary64 (UnpackedFloat.ofInt .binary64 n.toInt)) := rfl

theorem unpack_narrowOfInt64 (n : Int64) : (narrowOfInt64 n).toModel.unpack =
    unpack .binary32 (pack .binary32 (UnpackedFloat.ofInt .binary32 n.toInt)) := rfl

/-- **No integer but zero is zero as a number of binary64.** -/
theorem ofInt64_beq_zero {n : Int64} (hn : n ≠ 0) : (ofInt64 n == 0) = false := by
  rw [Bool.eq_false_iff, ne_eq, beq_zero_iff]
  rintro ⟨s, hs⟩
  have hne : n.toInt ≠ 0 := fun h => hn (Int64.toInt_inj.1 h)
  rw [unpack_ofInt64] at hs
  exact unpack_ofInt_ne_zero (by decide) hne s hs

/-- **No integer but zero is zero as a number of binary32.** -/
theorem widen_narrowOfInt64_beq_zero {n : Int64} (hn : n ≠ 0) :
    (widen (narrowOfInt64 n) == 0) = false := by
  rw [Bool.eq_false_iff, ne_eq, beq_zero_iff]
  rintro ⟨s, hs⟩
  have hne : n.toInt ≠ 0 := fun h => hn (Int64.toInt_inj.1 h)
  have hnarrow : ∀ s, (narrowOfInt64 n).toModel.unpack ≠ .zero s := by
    intro s
    rw [unpack_narrowOfInt64]
    exact unpack_ofInt_ne_zero (by decide) hne s
  exact unpack_widen_ne_zero hnarrow s hs

end TableRecords.Binary
