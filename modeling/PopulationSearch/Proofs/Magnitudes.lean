import Mathlib
import PopulationSearch.Proofs.Doubles

/-! Magnitudes of doubles. Rounding to the exponent of storage carries none past another one. -/

namespace PopulationSearch.Binary64

open Float.Model (UnpackedFloat Format totalExponent)
open Float.Model.UnpackedFloat (Sign ExtendedMantissa Accuracy unpack pack packComponents
  roundWithAccuracy shiftToTargetExponent shiftToExponent decreaseExponent)

section Shifting

theorem shiftRight_succ (em : ExtendedMantissa) (k : ℕ) :
    em >>> (k + 1) = (em >>> k).shiftRightOne := rfl

theorem mantissa_shiftRight (em : ExtendedMantissa) (k : ℕ) :
    (em >>> k).mantissa = em.mantissa / 2 ^ k := by
  induction k with
  | zero => exact (Nat.div_one _).symm
  | succ k ih =>
    rw [shiftRight_succ, pow_succ, ← Nat.div_div_eq_div_mul, ← ih]
    rfl

theorem shiftRight_of_dvd {m k : ℕ} (h : 2 ^ k ∣ m) :
    (⟨m, false, false⟩ : ExtendedMantissa) >>> k = ⟨m / 2 ^ k, false, false⟩ := by
  induction k with
  | zero =>
    rw [pow_zero, Nat.div_one]
    rfl
  | succ k ih =>
    have hk : 2 ^ k ∣ m := (pow_dvd_pow 2 (Nat.le_succ k)).trans h
    have heven : m / 2 ^ k % 2 = 0 := by
      obtain ⟨q, rfl⟩ := h
      rw [pow_succ, mul_assoc, Nat.mul_div_cancel_left _ (Nat.two_pow_pos k), Nat.mul_mod_right]
    rw [shiftRight_succ, ih hk, pow_succ, ← Nat.div_div_eq_div_mul]
    simp [ExtendedMantissa.shiftRightOne, heven]

theorem le_roundedMantissa (em : ExtendedMantissa) : em.mantissa ≤ em.roundedMantissa := by
  obtain ⟨m, _ | _, _ | _⟩ := em
  · exact le_rfl
  · exact le_rfl
  · exact Nat.le_add_right _ _
  · exact Nat.le_add_right _ _

theorem roundedMantissa_le (em : ExtendedMantissa) : em.roundedMantissa ≤ em.mantissa + 1 := by
  obtain ⟨m, _ | _, _ | _⟩ := em
  · exact Nat.le_succ _
  · exact Nat.le_succ _
  · exact Nat.add_le_add_left (Nat.le_of_lt_succ (Nat.mod_lt m Nat.two_pos)) m
  · exact le_rfl

def roundOff (m k : ℕ) : ℕ :=
  ((⟨m, false, false⟩ : ExtendedMantissa) >>> k).roundedMantissa

theorem div_le_roundOff (m k : ℕ) : m / 2 ^ k ≤ roundOff m k := by
  have h := le_roundedMantissa ((⟨m, false, false⟩ : ExtendedMantissa) >>> k)
  rwa [mantissa_shiftRight] at h

theorem roundOff_le_div_add_one (m k : ℕ) : roundOff m k ≤ m / 2 ^ k + 1 := by
  have h := roundedMantissa_le ((⟨m, false, false⟩ : ExtendedMantissa) >>> k)
  rwa [mantissa_shiftRight] at h

theorem roundOff_of_dvd {m k : ℕ} (h : 2 ^ k ∣ m) : roundOff m k = m / 2 ^ k := by
  rw [roundOff, shiftRight_of_dvd h]
  rfl

theorem le_roundOff {m k n : ℕ} (h : n * 2 ^ k ≤ m) : n ≤ roundOff m k :=
  ((Nat.le_div_iff_mul_le (Nat.two_pow_pos k)).mpr h).trans (div_le_roundOff m k)

theorem roundOff_le {m k n : ℕ} (h : m ≤ n * 2 ^ k) : roundOff m k ≤ n := by
  have hpos : 0 < 2 ^ k := Nat.two_pow_pos k
  by_cases hdvd : 2 ^ k ∣ m
  · rw [roundOff_of_dvd hdvd]
    exact Nat.div_le_of_le_mul (by rwa [mul_comm])
  · -- what is rounded off is not zero, so the next multiple is still at most `n`
    have hlt : m < n * 2 ^ k := by
      refine lt_of_le_of_ne h ?_
      rintro rfl
      exact hdvd (Nat.dvd_mul_left _ _)
    exact (roundOff_le_div_add_one m k).trans ((Nat.div_lt_iff_lt_mul hpos).mpr hlt)

end Shifting

/-- A mantissa and an exponent as they are stored, were there no greatest exponent. -/
structure Canonical (m : ℕ) (e : ℤ) : Prop where
  mantissa_lt : m < 2 ^ 53
  least_le : -1074 ≤ e
  full : 2 ^ 52 ≤ m ∨ e = -1074

section Magnitudes

variable {m n : ℕ} {e f t : ℤ}

theorem two_zpow_pos (e : ℤ) : (0 : ℚ) < 2 ^ e := zpow_pos (by norm_num) e

theorem two_zpow_of_le (h : e ≤ t) : (2 : ℚ) ^ t = 2 ^ (t - e).toNat * 2 ^ e := by
  have hsum : t = ((t - e).toNat : ℤ) + e := by omega
  rw [← zpow_natCast, ← zpow_add₀ (by norm_num), ← hsum]

theorem mul_two_zpow_of_le (n : ℕ) (h : e ≤ t) :
    (n : ℚ) * 2 ^ t = ((n * 2 ^ (t - e).toNat : ℕ) : ℚ) * 2 ^ e := by
  rw [two_zpow_of_le h]
  push_cast
  ring

theorem mul_two_zpow_le_iff : (m : ℚ) * 2 ^ e ≤ n * 2 ^ e ↔ m ≤ n := by
  rw [mul_le_mul_iff_left₀ (two_zpow_pos e), Nat.cast_le]

theorem Canonical.lt_of_lt (hm : Canonical m e) (hn : 2 ^ 52 ≤ n) (h : e < f) :
    (m : ℚ) * 2 ^ e < n * 2 ^ f := by
  have hstep : 2 ^ 1 ≤ 2 ^ (f - e).toNat := Nat.pow_le_pow_right Nat.two_pos (by omega)
  have hmn : m < n * 2 ^ (f - e).toNat := by
    calc m < 2 ^ 52 * 2 ^ 1 := hm.mantissa_lt
      _ ≤ n * 2 ^ (f - e).toNat := Nat.mul_le_mul hn hstep
  rw [mul_two_zpow_of_le n h.le, mul_lt_mul_iff_left₀ (two_zpow_pos e)]
  exact_mod_cast hmn

theorem Canonical.full_of_lt (hn : Canonical n f) (hm : Canonical m e) (h : e < f) :
    2 ^ 52 ≤ n := by
  have hleast := hm.least_le
  exact hn.full.resolve_right (by omega)

theorem Canonical.toLex_le_iff (hm : Canonical m e) (hn : Canonical n f) :
    toLex (e, (m : ℤ)) ≤ toLex (f, (n : ℤ)) ↔ (m : ℚ) * 2 ^ e ≤ n * 2 ^ f := by
  rw [Prod.Lex.toLex_le_toLex]
  rcases lt_trichotomy e f with h | rfl | h
  · have hlt := hm.lt_of_lt (hn.full_of_lt hm h) h
    simp [h, hlt.le]
  · rw [mul_two_zpow_le_iff]
    simp
  · have hlt := hn.lt_of_lt (hm.full_of_lt hn h) h
    simp [h.not_gt, h.ne', hlt.not_ge]

/-- `m * 2 ^ e` is not on the other side of any magnitude than `x`. -/
structure Brackets (x : ℚ) (m : ℕ) (e : ℤ) : Prop where
  le_of_le : ∀ n f, Canonical n f → (n : ℚ) * 2 ^ f ≤ x → (n : ℚ) * 2 ^ f ≤ m * 2 ^ e
  ge_of_ge : ∀ n f, Canonical n f → x ≤ (n : ℚ) * 2 ^ f → (m : ℚ) * 2 ^ e ≤ n * 2 ^ f

theorem brackets_roundOff (h : e ≤ t)
    (hfull : 2 ^ 52 * 2 ^ (t - e).toNat ≤ m ∨ t = -1074) :
    Brackets (m * 2 ^ e) (roundOff m (t - e).toNat) t := by
  refine ⟨fun n f hn hle => ?_, fun n f hn hle => ?_⟩
  · rcases le_or_gt t f with htf | hft
    · rw [mul_two_zpow_of_le n htf, mul_two_zpow_le_iff]
      rw [mul_two_zpow_of_le n (h.trans htf), mul_two_zpow_le_iff] at hle
      refine le_roundOff ?_
      rwa [mul_assoc, ← pow_add, show (f - t).toNat + (t - e).toNat = (f - e).toNat by omega]
    · have hleast_f := hn.least_le
      have hround := le_roundOff (hfull.resolve_right (by omega))
      exact (hn.lt_of_lt hround hft).le
  · rcases le_or_gt t f with htf | hft
    · rw [mul_two_zpow_of_le n htf, mul_two_zpow_le_iff]
      rw [mul_two_zpow_of_le n (h.trans htf), mul_two_zpow_le_iff] at hle
      refine roundOff_le ?_
      rwa [mul_assoc, ← pow_add, show (f - t).toNat + (t - e).toNat = (f - e).toNat by omega]
    · have hleast_f := hn.least_le
      have hm := hfull.resolve_right (by omega)
      have hfloor : ((2 ^ 52 : ℕ) : ℚ) * 2 ^ t ≤ m * 2 ^ e := by
        rwa [mul_two_zpow_of_le _ h, mul_two_zpow_le_iff]
      exact absurd (hfloor.trans hle) (hn.lt_of_lt le_rfl hft).not_ge

end Magnitudes

def signed (s : Sign) (m : ℕ) (e : ℤ) : UnpackedFloat :=
  if h : m = 0 then .zero s else .finite s m e (Nat.pos_of_ne_zero h)

theorem signed_of_pos (s : Sign) {m : ℕ} (hm : 0 < m) (e : ℤ) :
    signed s m e = .finite s m e hm := dif_neg hm.ne'

theorem apply_mul (s : Sign) (m : ℕ) (x : ℚ) :
    ((s.apply m : ℤ) : ℚ) * x = (s.apply 1 : ℤ) * (m * x) := by
  cases s <;> simp [Sign.apply]

theorem apply_positive (m : ℕ) : ((Sign.positive.apply m : ℤ) : ℚ) = m := Int.cast_natCast m

theorem apply_negative (m : ℕ) : ((Sign.negative.apply m : ℤ) : ℚ) = -m := by
  rw [Sign.apply, Int.cast_neg, Int.cast_natCast]

section Carrying

variable {m : ℕ} {e : ℤ}

theorem targetExponent_eq (m : ℕ) (e : ℤ) :
    Format.binary64.targetExponent (totalExponent m e) = max (m.log2 + e - 52) (-1074) := by
  simp only [Format.targetExponent, totalExponent, Format.mantissaBits, Format.minExponent]
  norm_num
  congr 1
  ring

theorem shiftToTargetExponent_eq (m : ℕ) (e : ℤ) :
    shiftToTargetExponent .binary64 m e .exact =
      ((⟨m, false, false⟩ : ExtendedMantissa) >>> (max (m.log2 + e - 52) (-1074) - e).toNat,
        e + ((max (m.log2 + e - 52) (-1074) - e).toNat : ℤ)) := by
  rw [shiftToTargetExponent, targetExponent_eq]
  rfl

theorem log2_le_of_lt (h : m < 2 ^ 53) : m.log2 ≤ 52 := by
  rcases Nat.eq_zero_or_pos m with rfl | hm
  · decide
  · exact Nat.le_of_lt_succ ((Nat.log2_lt hm.ne').mpr h)

theorem shiftToTargetExponent_rounded (hm : m ≤ 2 ^ 53) (hleast : -1074 ≤ e)
    (hfull : 2 ^ 52 ≤ m ∨ e = -1074) :
    ∃ n f, Canonical n f ∧ (n : ℚ) * 2 ^ f = m * 2 ^ e ∧
      shiftToTargetExponent .binary64 m e .exact = (⟨n, false, false⟩, f) := by
  rw [shiftToTargetExponent_eq]
  rcases hm.lt_or_eq with hlt | rfl
  · have hlog := log2_le_of_lt hlt
    have hshift : (max ((m.log2 : ℤ) + e - 52) (-1074) - e).toNat = 0 := by omega
    refine ⟨m, e, ⟨hlt, hleast, hfull⟩, rfl, ?_⟩
    rw [hshift]
    simp only [Nat.cast_zero, add_zero]
    rfl
  · have hshift : (max (((2 ^ 53 : ℕ).log2 : ℤ) + e - 52) (-1074) - e).toNat = 1 := by
      rw [Nat.log2_two_pow]
      omega
    refine ⟨2 ^ 52, e + 1, ⟨by norm_num, by omega, .inl le_rfl⟩, ?_, ?_⟩
    · rw [zpow_add_one₀ (by norm_num)]
      push_cast
      ring
    · rw [hshift, shiftRight_of_dvd (by norm_num)]
      rfl

theorem roundWithAccuracy_eq (s : Sign) (hm : 0 < m) (he : e ≤ max (m.log2 + e - 52) (-1074)) :
    ∃ n f, Canonical n f ∧ Brackets (m * 2 ^ e) n f ∧
      roundWithAccuracy .binary64 s m e .exact = signed s n f := by
  generalize htarget : max ((m.log2 : ℤ) + e - 52) (-1074) = t at he
  generalize hk : (t - e).toNat = k
  have hlow : 2 ^ m.log2 ≤ m := Nat.log2_self_le hm.ne'
  have hhigh : m < 2 ^ (m.log2 + 1) := Nat.lt_log2_self
  have hfull : 2 ^ 52 * 2 ^ k ≤ m ∨ t = -1074 := by
    rcases le_or_gt ((m.log2 : ℤ) + e - 52) (-1074) with h | h
    · right
      omega
    · left
      rw [← pow_add, show 52 + k = m.log2 by omega]
      exact hlow
  have hround : roundOff m k ≤ 2 ^ 53 := by
    refine roundOff_le (hhigh.le.trans ?_)
    rw [← pow_add]
    exact Nat.pow_le_pow_right Nat.two_pos (by omega)
  have hbrackets : Brackets (m * 2 ^ e) (roundOff m k) t := by
    rw [← hk]
    exact brackets_roundOff he (by rwa [hk])
  obtain ⟨n, f, hcanonical, hvalue, hcarry⟩ := shiftToTargetExponent_rounded hround
    (show -1074 ≤ t by omega) (hfull.imp_left le_roundOff)
  refine ⟨n, f, hcanonical, ⟨?_, ?_⟩, ?_⟩
  · rw [hvalue]
    exact hbrackets.le_of_le
  · rw [hvalue]
    exact hbrackets.ge_of_ge
  · have hexponent : e + (k : ℤ) = t := by omega
    rw [roundWithAccuracy, shiftToTargetExponent_eq, htarget, hk, hexponent]
    change signed s (shiftToTargetExponent .binary64 (roundOff m k) t .exact).1.mantissa
      (shiftToTargetExponent .binary64 (roundOff m k) t .exact).2 = _
    rw [hcarry]

end Carrying

section Storing

theorem unpack_packComponents_least (s : Sign) (fraction : BitVec 52) :
    unpack .binary64 (packComponents .binary64 s 0#11 fraction) =
      signed s fraction.toNat (-1074) := by
  have hfield : (0#11 : BitVec 11) ≠ -1#11 := by decide
  have hzero : fraction = 0#52 ↔ fraction.toNat = 0 := BitVec.toNat_eq
  simp only [unpack, UnpackedFloat.unpackExponent_packComponents,
    UnpackedFloat.unpackMantissa_packComponents, UnpackedFloat.unpackSign_packComponents,
    Sign.ofBitVec_toBitVec, if_neg hfield, signed, hzero]
  rfl

theorem unpack_packComponents_full (s : Sign) {field : BitVec 11} (hleast : field ≠ 0#11)
    (hmost : field ≠ -1#11) (fraction : BitVec 52) :
    unpack .binary64 (packComponents .binary64 s field fraction) =
      signed s (2 ^ 52 + fraction.toNat) (field.toNat - 1075) := by
  have hbits : (1#1 ++ fraction).toNat = 2 ^ 52 + fraction.toNat := by
    rw [BitVec.toNat_append, ← Nat.shiftLeft_add_eq_or_of_lt fraction.isLt]
    rfl
  have hpos : 2 ^ 52 + fraction.toNat ≠ 0 := by omega
  simp only [unpack, UnpackedFloat.unpackExponent_packComponents,
    UnpackedFloat.unpackMantissa_packComponents, UnpackedFloat.unpackSign_packComponents,
    Sign.ofBitVec_toBitVec, if_neg hleast, if_neg hmost, signed, dif_neg hpos, hbits]
  rfl

theorem toNat_lt_of_ne_neg_one {field : BitVec 11} (h : field ≠ -1#11) : field.toNat ≤ 2046 := by
  have hlt := field.isLt
  by_contra hge
  apply h
  apply BitVec.eq_of_toNat_eq
  change field.toNat = 2047
  omega

theorem exists_signed_of_isFinite {b : BitVec Format.binary64.numBits}
    (h : (unpack .binary64 b).isFinite = true) :
    ∃ s m e, Canonical m e ∧ e ≤ 971 ∧ unpack .binary64 b = signed s m e := by
  obtain ⟨s, field, fraction, rfl⟩ :
      ∃ s field fraction, packComponents .binary64 s field fraction = b :=
    ⟨_, _, _, UnpackedFloat.packComponents_unpackSign_unpackExponent_unpackMantissa b⟩
  have hfraction : fraction.toNat < 2 ^ 52 := fraction.isLt
  by_cases hmost : field = -1#11
  · exfalso
    revert h
    simp only [unpack, UnpackedFloat.unpackExponent_packComponents, if_pos hmost]
    split <;> simp [UnpackedFloat.isFinite]
  by_cases hleast : field = 0#11
  · rw [hleast, unpack_packComponents_least]
    exact ⟨_, _, _, ⟨by omega, le_rfl, .inr rfl⟩, by norm_num, rfl⟩
  · rw [unpack_packComponents_full s hleast hmost]
    have hfield := toNat_lt_of_ne_neg_one hmost
    have hpos : field.toNat ≠ 0 := by
      intro hzero
      exact hleast (BitVec.eq_of_toNat_eq hzero)
    exact ⟨_, _, _, ⟨by omega, by omega, .inl (Nat.le_add_right _ _)⟩, by omega, rfl⟩

theorem pack_finite {m : ℕ} (hm : 0 < m) (s : Sign) (e : ℤ) :
    pack .binary64 (.finite s m e hm) =
      if 2 ^ 11 ≤ (e + 1023 + 52).toNat + 1 then UnpackedFloat.packedInfinity .binary64 s
      else if m.log2 + 1 = 53 then
        packComponents .binary64 s (BitVec.ofNat 11 (e + 1023 + 52).toNat) (BitVec.ofNat 52 m)
      else packComponents .binary64 s 0#11 (BitVec.ofNat 52 m) := rfl

theorem unpack_pack_signed {m : ℕ} {e : ℤ} (h : Canonical m e) (he : e ≤ 971) (s : Sign) :
    unpack .binary64 (pack .binary64 (signed s m e)) = signed s m e := by
  have hm := h.mantissa_lt
  have hleast := h.least_le
  by_cases hzero : m = 0
  · rw [signed, dif_pos hzero]
    exact UnpackedFloat.unpack_packedZero
  have hlog := log2_le_of_lt hm
  have hfits : ¬ 2 ^ 11 ≤ (e + 1023 + 52).toNat + 1 := by omega
  rw [signed, dif_neg hzero, pack_finite, if_neg hfits]
  by_cases hfull : 2 ^ 52 ≤ m
  · have hlow : 52 ≤ m.log2 := (Nat.le_log2 hzero).mpr hfull
    rw [if_pos (by omega)]
    have hfield : (BitVec.ofNat 11 (e + 1023 + 52).toNat).toNat = (e + 1075).toNat := by
      rw [BitVec.toNat_ofNat, Nat.mod_eq_of_lt (by omega)]
      congr 1
      ring
    have hfraction : (BitVec.ofNat 52 m).toNat = m - 2 ^ 52 := by
      rw [BitVec.toNat_ofNat]
      omega
    have hmin : BitVec.ofNat 11 (e + 1023 + 52).toNat ≠ 0#11 := by
      intro hnone
      have hval := congrArg BitVec.toNat hnone
      rw [hfield] at hval
      change (e + 1075).toNat = 0 at hval
      omega
    have hmax : BitVec.ofNat 11 (e + 1023 + 52).toNat ≠ -1#11 := by
      intro hones
      have hval := congrArg BitVec.toNat hones
      rw [hfield] at hval
      change (e + 1075).toNat = 2047 at hval
      omega
    have hmantissa : 2 ^ 52 + (m - 2 ^ 52) = m := by omega
    have hexponent : ((e + 1075).toNat : ℤ) - 1075 = e := by omega
    rw [unpack_packComponents_full s hmin hmax, hfield, hfraction, hmantissa, hexponent, signed,
      dif_neg hzero]
  · have hexponent : e = -1074 := h.full.resolve_left hfull
    have hlow : m.log2 < 52 := (Nat.log2_lt hzero).mpr (by omega)
    have hfraction : (BitVec.ofNat 52 m).toNat = m := by
      rw [BitVec.toNat_ofNat]
      omega
    rw [if_neg (by omega), unpack_packComponents_least, hfraction, signed, dif_neg hzero, hexponent]

theorem unpack_pack_signed_of_lt {m : ℕ} {e : ℤ} (hm : m ≠ 0) (he : 971 < e) (s : Sign) :
    unpack .binary64 (pack .binary64 (signed s m e)) = .infinity s := by
  have hover : 2 ^ 11 ≤ (e + 1023 + 52).toNat + 1 := by omega
  rw [signed, dif_neg hm, pack_finite, if_pos hover]
  simp [UnpackedFloat.packedInfinity, unpack]

end Storing

end PopulationSearch.Binary64
