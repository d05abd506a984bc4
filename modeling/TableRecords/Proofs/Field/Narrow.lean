import TableRecords.Proofs.Field.Binary

/-!
# Binary32 numbers among those of binary64

Rounding keeps a number that the format holds, be it written with more digits or with fewer
(`round_shiftLeft`, `round_of_shiftLeft`), and what is stored can be taken from there again.  A
binary32 number is therefore found again behind the binary64 number that it becomes:

    pack format (unpack format b) = b                                  (pack_unpack)
    narrow (widen x) = x                                               (narrow_widen)

There is one number that is not a number, so this holds of it too.
-/

namespace TableRecords.Binary

open Float.Model (Format UnpackedFloat totalExponent)
open Float.Model.UnpackedFloat

/-! ## Rounding -/

/-- A mantissa and an exponent that a format holds as they are: the mantissa has all its digits, or
fewer at the least exponent. -/
def Fits (format : Format) (m : Nat) (e : Int) : Prop :=
  format.targetExponent (totalExponent m e) = e

theorem totalExponent_shiftLeft {m : Nat} (hm : m ≠ 0) (e : Int) (k : Nat) :
    totalExponent (m <<< k) (e - k) = totalExponent m e := by
  obtain ⟨-, hlog⟩ := log2_shiftLeft hm k
  unfold totalExponent
  omega

/-- Shifting to the right loses no digit that shifting to the left has added. -/
theorem shiftRight_shiftLeft (m k : Nat) :
    (ExtendedMantissa.ofMantissaAndAccuracy (m <<< k) .exact >>> k) = ⟨m, false, false⟩ := by
  induction k generalizing m with
  | zero => rfl
  | succ k ih =>
    show ExtendedMantissa.shiftRightOne
      (ExtendedMantissa.ofMantissaAndAccuracy (m <<< (k + 1)) .exact >>> k) = _
    rw [Nat.shiftLeft_succ_inside, ih]
    simp [ExtendedMantissa.shiftRightOne]

/-- Digits behind those that fit are cut off, if they are zeros. -/
theorem shiftToTargetExponent_of_fits {format : Format} {m : Nat} {e : Int} (hm : m ≠ 0)
    (h : Fits format m e) (k : Nat) :
    shiftToTargetExponent format (m <<< k) (e - k) .exact = (⟨m, false, false⟩, e) := by
  have hshift : (e - (e - k)).toNat = k := by omega
  have hexponent : e - k + (k : Int) = e := by omega
  have htarget : format.targetExponent (totalExponent (m <<< k) (e - k)) = e := by
    rw [totalExponent_shiftLeft hm, h]
  simp only [shiftToTargetExponent, shiftToExponent, htarget, hshift, hexponent,
    shiftRight_shiftLeft]

theorem roundWithAccuracy_of_fits {format : Format} {m : Nat} {e : Int} (s : Sign) (hm : 0 < m)
    (h : Fits format m e) (k : Nat) :
    roundWithAccuracy format s (m <<< k) (e - k) .exact = .finite s m e hm := by
  have hfirst := shiftToTargetExponent_of_fits (Nat.ne_of_gt hm) h k
  have hsecond : shiftToTargetExponent format m e .exact = (⟨m, false, false⟩, e) := by
    simpa using shiftToTargetExponent_of_fits (Nat.ne_of_gt hm) h 0
  have hrounded : (⟨m, false, false⟩ : ExtendedMantissa).roundedMantissa = m := rfl
  simp only [roundWithAccuracy, hfirst, hrounded, hsecond]
  exact dif_neg (Nat.ne_of_gt hm)

/-- Rounding does not change a number that the format holds with fewer digits. -/
theorem round_shiftLeft {format : Format} {m : Nat} {e : Int} (s : Sign) (hm : 0 < m)
    (h : Fits format m e) (k : Nat) :
    round format s (m <<< k) (e - k) = .finite s m e hm := by
  have htarget : format.targetExponent (totalExponent (m <<< k) (e - k)) = e := by
    rw [totalExponent_shiftLeft (Nat.ne_of_gt hm), h]
  have hnone : (e - k - e).toNat = 0 := by omega
  simp only [UnpackedFloat.round, htarget, decreaseExponent, hnone, Nat.shiftLeft_zero,
    Nat.cast_zero, Int.sub_zero]
  exact roundWithAccuracy_of_fits s hm h k

/-- Nor one that it holds with more digits. -/
theorem round_of_shiftLeft {format : Format} {m : Nat} {e : Int} (s : Sign) {k : Nat}
    (hm : 0 < m <<< k) (h : Fits format (m <<< k) (e - k)) :
    round format s m e = .finite s (m <<< k) (e - k) hm := by
  have hne : m ≠ 0 := by
    rintro rfl
    simp at hm
  have htarget : format.targetExponent (totalExponent m e) = e - k := by
    rw [← totalExponent_shiftLeft hne e k, h]
  have hshift : (e - (e - k)).toNat = k := by omega
  simp only [UnpackedFloat.round, htarget, decreaseExponent, hshift]
  simpa using roundWithAccuracy_of_fits s hm h 0

/-! ## Storing -/

theorem toBitVec_ofBitVec (v : BitVec 1) : (Sign.ofBitVec v).toBitVec = v := by
  revert v
  decide

/-- A stored number is its sign, its exponent and its mantissa. -/
theorem packComponents_unpack {format : Format} (b : BitVec format.numBits) :
    packComponents format (Sign.ofBitVec (unpackSign b)) (unpackExponent b) (unpackMantissa b) =
      b := by
  have hm := format.hm
  have he := format.he
  have hbits : format.numBits = 1 + format.exponentBits + format.mantissaBitsWithoutImplicit := rfl
  apply BitVec.eq_of_getLsbD_eq
  intro i hi
  rw [packComponents, toBitVec_ofBitVec, BitVec.getLsbD_append, BitVec.getLsbD_append]
  simp only [unpackMantissa, unpackExponent, unpackSign, BitVec.getLsbD_cast,
    BitVec.getLsbD_extractLsb]
  split
  · next hmantissa =>
    rw [Nat.zero_add, decide_eq_true (by omega), Bool.true_and]
  · next hmantissa =>
    split
    · next hexponent =>
      rw [Nat.add_sub_cancel' (Nat.le_of_not_lt hmantissa), decide_eq_true (by omega),
        Bool.true_and]
    · next hexponent =>
      have hsign : i - format.mantissaBitsWithoutImplicit - format.exponentBits = 0 := by omega
      have htop : format.mantissaBitsWithoutImplicit + format.exponentBits = i := by omega
      rw [hsign, decide_eq_true (by omega), Bool.true_and, Nat.add_zero, htop]

theorem toNat_append_one {n : Nat} (v : BitVec n) :
    (1#1 ++ v).toNat = 2 ^ n + v.toNat ∧ (1#1 ++ v).toNat.log2 = n := by
  have hv := v.isLt
  have hvalue : (1#1 ++ v).toNat = 2 ^ n + v.toNat := by
    rw [BitVec.toNat_append, ← Nat.shiftLeft_add_eq_or_of_lt hv, Nat.shiftLeft_eq]
    simp
  have hne : (1#1 ++ v).toNat ≠ 0 := by
    have := Nat.two_pow_pos n
    omega
  refine ⟨hvalue, (Nat.log2_eq_iff hne).2 ⟨?_, ?_⟩⟩
  · omega
  · rw [Nat.pow_succ]
    omega

/-- A full mantissa is stored without its first digit. -/
theorem pack_full {format : Format} (s : Sign) {m : Nat} {e : Int} (hm : 0 < m)
    (hdigits : m.log2 = format.mantissaBitsWithoutImplicit) {biased : Nat}
    (hbiased : (e + format.exponentBias + format.mantissaBitsWithoutImplicit).toNat = biased)
    (hlarge : biased + 1 < 2 ^ format.exponentBits) :
    pack format (.finite s m e hm) =
      packComponents format s (BitVec.ofNat _ biased) (BitVec.ofNat _ m) := by
  simp only [pack, hdigits, Format.mantissaBits, hbiased]
  rw [if_neg (by omega), if_pos (by omega)]

/-- Below a full mantissa zero is stored for the least exponent. -/
theorem pack_below_full {format : Format} (hbits : 1 < format.exponentBits) (s : Sign) {m : Nat}
    (hm : 0 < m) (hdigits : m.log2 < format.mantissaBitsWithoutImplicit) :
    pack format (.finite s m format.minExponent hm) =
      packComponents format s 0#_ (BitVec.ofNat _ m) := by
  have hbiased : (format.minExponent + format.exponentBias +
      format.mantissaBitsWithoutImplicit).toNat = 1 := by
    rw [minExponent_stored]
    rfl
  have hpow : 2 ^ 2 ≤ 2 ^ format.exponentBits := Nat.pow_le_pow_right (by omega) hbits
  simp only [pack, hbiased, Format.mantissaBits]
  rw [if_neg (by omega), if_neg (by omega)]

/-- The least exponent is read where zero is stored. -/
theorem exponent_zero (format : Format) : ((0#_ : BitVec format.exponentBits).toNat : Int) -
    (format.exponentBias + format.mantissaBitsWithoutImplicit) + 1 = format.minExponent := by
  have hmin := minExponent_stored format
  rw [BitVec.toNat_zero]
  omega

/-- A number is stored again from its sign, its exponent and its mantissa, however these are
written. -/
theorem packComponents_of_unpack {format : Format} {b : BitVec format.numBits}
    {e : BitVec format.exponentBits} {m : BitVec format.mantissaBitsWithoutImplicit}
    (he : unpackExponent b = e) (hm : unpackMantissa b = m) :
    packComponents format (Sign.ofBitVec (unpackSign b)) e m = b := by
  rw [← he, ← hm, packComponents_unpack]

/-- What was unpacked is stored as it was. -/
theorem pack_unpack {format : Format} (hbits : 1 < format.exponentBits)
    {b : BitVec format.numBits} (h : format.Valid b) : pack format (unpack format b) = b := by
  have hmantissa := (unpackMantissa b).isLt
  simp only [unpack]
  split
  · next hones =>
    split
    · next hzero => exact packComponents_of_unpack hones hzero
    · next hzero => exact (h.eq_packedNaN hones hzero).symm
  · next hones =>
    split
    · next hexp =>
      split
      · next hzero => exact packComponents_of_unpack hexp hzero
      · next hzero =>
        have hne : (unpackMantissa b).toNat ≠ 0 := by
          rwa [← BitVec.toNat_inj] at hzero
        simp only [hexp, exponent_zero]
        rw [pack_below_full hbits _ _ ((Nat.log2_lt hne).2 hmantissa)]
        apply packComponents_of_unpack hexp
        rw [BitVec.ofNat_toNat, BitVec.setWidth_eq]
    · next hexp =>
      obtain ⟨hvalue, hdigits⟩ := toNat_append_one (unpackMantissa b)
      have hlarge : (unpackExponent b).toNat + 1 < 2 ^ format.exponentBits := by
        have hexponent := (unpackExponent b).isLt
        have hne : (unpackExponent b).toNat ≠ (-1#_ : BitVec format.exponentBits).toNat :=
          fun heq => hones (BitVec.toNat_inj.1 heq)
        rw [BitVec.neg_one_eq_allOnes, BitVec.toNat_allOnes] at hne
        omega
      rw [pack_full _ _ hdigits (by omega) hlarge]
      apply packComponents_of_unpack
      · rw [BitVec.ofNat_toNat, BitVec.setWidth_eq]
      · rw [← BitVec.toNat_inj, BitVec.toNat_ofNat, hvalue, Nat.add_mod_left,
          Nat.mod_eq_of_lt hmantissa]

/-- What is unpacked fits, and its exponent can be stored. -/
theorem fits_of_unpack {format : Format} {b : BitVec format.numBits} {s : Sign} {m : Nat} {e : Int}
    {hm : 0 < m} (h : unpack format b = .finite s m e hm) :
    Fits format m e ∧ m.log2 ≤ format.mantissaBitsWithoutImplicit ∧ format.minExponent ≤ e ∧
      e + format.exponentBias + format.mantissaBitsWithoutImplicit <
        ((2 ^ format.exponentBits : Nat) : Int) := by
  have hmin := minExponent_stored format
  have hexponent := (unpackExponent b).isLt
  have hmantissa := (unpackMantissa b).isLt
  simp only [unpack] at h
  split at h
  · split at h <;> simp at h
  · split at h
    · next hexp =>
      split at h
      · simp at h
      · next hzero =>
        have hne : (unpackMantissa b).toNat ≠ 0 := by
          rwa [← BitVec.toNat_inj] at hzero
        have hdigits := (Nat.log2_lt hne).2 hmantissa
        have hone : 1 < 2 ^ format.exponentBits := Nat.one_lt_two_pow (Nat.ne_of_gt format.he)
        rw [hexp, exponent_zero] at h
        injection h with _ hm' he'
        subst hm'
        unfold Fits Format.targetExponent totalExponent Format.mantissaBits
        omega
    · next hexp =>
      obtain ⟨-, hdigits⟩ := toNat_append_one (unpackMantissa b)
      have hpos : (unpackExponent b).toNat ≠ 0 := by
        rwa [← BitVec.toNat_inj] at hexp
      injection h with _ hm' he'
      subst hm'
      unfold Fits Format.targetExponent totalExponent Format.mantissaBits
      omega

/-- The sign is taken from where it is stored, as the rest is. -/
theorem unpackSign_packComponents {format : Format} (s : Sign) (e : BitVec format.exponentBits)
    (m : BitVec format.mantissaBitsWithoutImplicit) :
    Sign.ofBitVec (unpackSign (packComponents format s e m)) = s := by
  have he : unpackExponent (packComponents format s e m) = e := unpackExponent_packComponents
  have hm : unpackMantissa (packComponents format s e m) = m := unpackMantissa_packComponents
  have hparts := packComponents_of_unpack he hm
  have hsign := (BitVec.append_left_inj _).1 ((BitVec.append_left_inj _).1 hparts)
  rw [toBitVec_ofBitVec] at hsign
  rw [hsign]
  cases s <;> rfl

/-- A full mantissa is taken from where it is stored. -/
theorem unpack_pack_full {format : Format} (s : Sign) {m : Nat} {e : Int} (hm : 0 < m)
    (hdigits : m.log2 = format.mantissaBitsWithoutImplicit) (he : format.minExponent ≤ e)
    (hlarge : (e + format.exponentBias + format.mantissaBitsWithoutImplicit).toNat + 1 <
      2 ^ format.exponentBits) :
    unpack format (pack format (.finite s m e hm)) = .finite s m e hm := by
  have hmin := minExponent_stored format
  generalize hbiased : (e + format.exponentBias + format.mantissaBitsWithoutImplicit).toNat = biased
    at hlarge
  have hpack := pack_full s hm hdigits hbiased hlarge
  have hexponent : (BitVec.ofNat format.exponentBits biased).toNat = biased := by
    rw [BitVec.toNat_ofNat, Nat.mod_eq_of_lt (by omega)]
  have hnotOnes : BitVec.ofNat format.exponentBits biased ≠ -1#_ := by
    rw [ne_eq, ← BitVec.toNat_inj, hexponent, BitVec.neg_one_eq_allOnes, BitVec.toNat_allOnes]
    omega
  have hnotZero : BitVec.ofNat format.exponentBits biased ≠ 0#_ := by
    rw [ne_eq, ← BitVec.toNat_inj, hexponent, BitVec.toNat_zero]
    omega
  have hmantissa : (1#1 ++ BitVec.ofNat format.mantissaBitsWithoutImplicit m).toNat = m := by
    have hlow : 2 ^ format.mantissaBitsWithoutImplicit ≤ m := by
      rw [← hdigits]
      exact Nat.log2_self_le (Nat.ne_of_gt hm)
    have hhigh : m < 2 ^ format.mantissaBitsWithoutImplicit * 2 := by
      rw [← Nat.pow_succ, ← hdigits]
      exact Nat.lt_log2_self
    rw [(toNat_append_one _).1, BitVec.toNat_ofNat, Nat.mod_eq_sub_mod hlow,
      Nat.mod_eq_of_lt (by omega)]
    omega
  have hvalue :
      (biased : Int) - (format.exponentBias + format.mantissaBitsWithoutImplicit) = e := by
    omega
  simp only [hpack, unpack, unpackMantissa_packComponents, unpackExponent_packComponents,
    unpackSign_packComponents, if_neg hnotOnes, if_neg hnotZero, hexponent, hmantissa, hvalue]

theorem unpack_packedInfinity (format : Format) (s : Sign) :
    unpack format (packedInfinity format s) = .infinity s := by
  simp only [packedInfinity, unpack, unpackMantissa_packComponents, unpackExponent_packComponents,
    unpackSign_packComponents]
  rfl

theorem unpack_packedZero (format : Format) (s : Sign) :
    unpack format (packedZero format s) = .zero s := by
  have hones : (0 : BitVec format.exponentBits) ≠ -1#_ := (neg_one_ne_zero format).symm
  simp only [packedZero, unpack, unpackMantissa_packComponents, unpackExponent_packComponents,
    unpackSign_packComponents, if_neg hones]
  rfl

/-! ## There and back -/

theorem unpack_widen (x : Float32) : (widen x).toModel.unpack =
    unpack .binary64 (pack .binary64 (rounded .binary64 x.toModel.unpack)) := rfl

/-- A finite binary32 number other than zero is a full binary64 number. -/
theorem unpack_widen_finite {x : Float32} {s : Sign} {m : Nat} {e : Int} {hm : 0 < m}
    (h : x.toModel.unpack = .finite s m e hm) :
    ∃ k hm', Fits .binary32 m e ∧ (widen x).toModel.unpack = .finite s (m <<< k) (e - k) hm' := by
  obtain ⟨hfits, hdigits, hmin, hmax⟩ := fits_of_unpack h
  have hmin : -149 ≤ e := hmin
  have hmax : e + 127 + 23 < 256 := hmax
  have hdigits : m.log2 ≤ 23 := hdigits
  generalize hk : 52 - m.log2 = k
  obtain ⟨hne, hlog⟩ := log2_shiftLeft (Nat.ne_of_gt hm) k
  have hfull : (m <<< k).log2 = Format.binary64.mantissaBitsWithoutImplicit := by
    show _ = 52
    omega
  have hleast : Format.binary64.minExponent ≤ e - k := by
    show -1074 ≤ e - k
    omega
  have hwide : Fits .binary64 (m <<< k) (e - k) := by
    unfold Fits Format.targetExponent totalExponent Format.mantissaBits
    omega
  refine ⟨k, Nat.pos_of_ne_zero hne, hfits, ?_⟩
  rw [unpack_widen, h, rounded, round_of_shiftLeft s (Nat.pos_of_ne_zero hne) hwide]
  apply unpack_pack_full s _ hfull hleast
  show (e - k + 1023 + 52).toNat + 1 < 2048
  omega

theorem pack_unpack_binary32 (x : Float32.Model) : Float32.Model.pack x.unpack = x := by
  obtain ⟨bits, valid⟩ := x
  have hbits : pack .binary32 (unpack .binary32 bits.toBitVec) = bits.toBitVec :=
    pack_unpack (by decide) valid
  have hword : UInt32.ofBitVec (pack .binary32 (unpack .binary32 bits.toBitVec)) = bits := by
    rw [hbits]
  simp only [Float32.Model.pack, Float32.Model.unpack, hword]

/-- **Narrowing undoes widening.** -/
theorem narrow_widen (x : Float32) : narrow (widen x) = x := by
  have hback : rounded .binary32 (widen x).toModel.unpack = x.toModel.unpack := by
    cases hx : x.toModel.unpack with
    | notANumber =>
      rw [unpack_widen, hx]
      rfl
    | infinity s =>
      rw [unpack_widen, hx]
      exact congrArg (rounded _) (unpack_packedInfinity .binary64 s)
    | zero s =>
      rw [unpack_widen, hx]
      exact congrArg (rounded _) (unpack_packedZero .binary64 s)
    | finite s m e hm =>
      obtain ⟨k, hm', hfits, hwide⟩ := unpack_widen_finite hx
      rw [hwide]
      exact round_shiftLeft s hm hfits k
  show Float32.ofModel (.pack (rounded .binary32 (widen x).toModel.unpack)) = x
  rw [hback, pack_unpack_binary32]

end TableRecords.Binary
