import PopulationSearch.Proofs.DoubleLaws

/-! A quotient is cut off with two residual bits, which is enough to round it past no double. -/

namespace PopulationSearch.Binary64

open Float.Model (UnpackedFloat Format totalExponent)
open Float.Model.UnpackedFloat (Sign ExtendedMantissa Accuracy pack roundWithAccuracy
  shiftToTargetExponent shiftToExponent accuracyOfFraction divCore)

/-- A mantissa that is a number cut off to a whole one. Its residual bits are clear if that has lost
nothing. -/
structure Truncates (em : ExtendedMantissa) (y : ℚ) : Prop where
  le : (em.mantissa : ℚ) ≤ y
  lt : y < em.mantissa + 1
  exact : y = em.mantissa → em.roundBit = false ∧ em.stickyBit = false

namespace Truncates

variable {em : ExtendedMantissa} {y : ℚ}

theorem shiftRightOne (h : Truncates em y) : Truncates em.shiftRightOne (y / 2) := by
  have hsplit : (em.mantissa : ℚ) = 2 * (em.mantissa / 2 : ℕ) + (em.mantissa % 2 : ℕ) := by
    exact_mod_cast (Nat.div_add_mod em.mantissa 2).symm
  have hbit : ((em.mantissa % 2 : ℕ) : ℚ) ≤ 1 := by
    exact_mod_cast Nat.le_of_lt_succ (Nat.mod_lt em.mantissa Nat.two_pos)
  have hbit0 : (0 : ℚ) ≤ (em.mantissa % 2 : ℕ) := Nat.cast_nonneg _
  have hle := h.le
  have hlt := h.lt
  constructor
  case le =>
    change ((em.mantissa / 2 : ℕ) : ℚ) ≤ y / 2
    linarith
  case lt =>
    change y / 2 < ((em.mantissa / 2 : ℕ) : ℚ) + 1
    linarith
  case exact =>
    intro heq
    change y / 2 = ((em.mantissa / 2 : ℕ) : ℚ) at heq
    have hzero : ((em.mantissa % 2 : ℕ) : ℚ) = 0 := by linarith
    have heven : em.mantissa % 2 = 0 := Nat.cast_eq_zero.mp hzero
    obtain ⟨hround, hsticky⟩ := h.exact (by linarith)
    simp [ExtendedMantissa.shiftRightOne, heven, hround, hsticky]

theorem shiftRight (h : Truncates em y) (k : ℕ) : Truncates (em >>> k) (y / 2 ^ k) := by
  induction k with
  | zero =>
    rw [pow_zero, div_one]
    exact h
  | succ k ih =>
    rw [shiftRight_succ, pow_succ, ← div_div]
    exact ih.shiftRightOne

theorem roundedMantissa_le (h : Truncates em y) {n : ℕ} (hn : y ≤ n) : em.roundedMantissa ≤ n := by
  have hle : em.mantissa ≤ n := by exact_mod_cast h.le.trans hn
  rcases hle.lt_or_eq with hlt | rfl
  · exact (Binary64.roundedMantissa_le em).trans hlt
  · obtain ⟨hround, hsticky⟩ := h.exact (le_antisymm hn h.le)
    obtain ⟨m, _, _⟩ := em
    subst hround hsticky
    exact le_rfl

theorem le_roundedMantissa (h : Truncates em y) {n : ℕ} (hn : (n : ℚ) ≤ y) :
    n ≤ em.roundedMantissa := by
  have hlt : n < em.mantissa + 1 := by exact_mod_cast hn.trans_lt h.lt
  exact (Nat.le_of_lt_succ hlt).trans (Binary64.le_roundedMantissa em)

theorem brackets (h : Truncates em y) {t : ℤ} (hfull : 2 ^ 52 ≤ em.mantissa ∨ t = -1074) :
    Brackets (y * 2 ^ t) em.roundedMantissa t := by
  have ht := two_zpow_pos t
  constructor
  case le_of_le =>
    intro n f hn hle
    rcases le_or_gt t f with htf | hft
    · rw [mul_two_zpow_of_le n htf] at hle ⊢
      rw [mul_le_mul_iff_left₀ ht] at hle
      rw [mul_two_zpow_le_iff]
      exact h.le_roundedMantissa hle
    · have hleast := hn.least_le
      have hround := (hfull.resolve_right (by omega)).trans (Binary64.le_roundedMantissa em)
      exact (hn.lt_of_lt hround hft).le
  case ge_of_ge =>
    intro n f hn hle
    rcases le_or_gt t f with htf | hft
    · rw [mul_two_zpow_of_le n htf] at hle ⊢
      rw [mul_le_mul_iff_left₀ ht] at hle
      rw [mul_two_zpow_le_iff]
      exact h.roundedMantissa_le hle
    · have hleast := hn.least_le
      have hbelow := hn.lt_of_lt (hfull.resolve_right (by omega)) hft
      have habove : (em.mantissa : ℚ) * 2 ^ t ≤ y * 2 ^ t :=
        (mul_le_mul_iff_left₀ ht).mpr h.le
      exact absurd (habove.trans hle) hbelow.not_ge

end Truncates

section Dividing

variable {m n : ℕ} {e f : ℤ} {y : ℚ} {accuracy : Accuracy}

theorem mantissa_ofMantissaAndAccuracy (m : ℕ) (accuracy : Accuracy) :
    (ExtendedMantissa.ofMantissaAndAccuracy m accuracy).mantissa = m := by
  rcases accuracy with _ | _ | _ | _ <;> rfl

theorem truncates_div (m : ℕ) (hn : 0 < n) :
    Truncates (.ofMantissaAndAccuracy (m / n) (accuracyOfFraction (m % n) n)) (m / n) := by
  have hnpos : (0 : ℚ) < n := Nat.cast_pos.mpr hn
  constructor
  case le =>
    rw [mantissa_ofMantissaAndAccuracy]
    exact Nat.cast_div_le
  case lt =>
    rw [mantissa_ofMantissaAndAccuracy, div_lt_iff₀ hnpos]
    exact_mod_cast Nat.lt_mul_of_div_lt (Nat.lt_succ_self (m / n)) hn
  case exact =>
    intro heq
    rw [mantissa_ofMantissaAndAccuracy, div_eq_iff hnpos.ne'] at heq
    have hwhole : m = m / n * n := by exact_mod_cast heq
    have hmod : m % n = 0 := by
      rw [hwhole, Nat.mul_mod_left]
    rw [hmod, accuracyOfFraction, if_pos rfl]
    exact ⟨rfl, rfl⟩

theorem roundWithAccuracy_truncated (s : Sign)
    (h : Truncates (.ofMantissaAndAccuracy m accuracy) y)
    (he : e ≤ max (m.log2 + e - 52) (-1074)) :
    ∃ n f, Canonical n f ∧ Brackets (y * 2 ^ e) n f ∧
      roundWithAccuracy .binary64 s m e accuracy = signed s n f := by
  generalize htarget : max ((m.log2 : ℤ) + e - 52) (-1074) = t at he
  generalize hk : (t - e).toNat = k
  have hexponent : e + (k : ℤ) = t := by omega
  set em := ExtendedMantissa.ofMantissaAndAccuracy m accuracy >>> k with hem
  have htruncates : Truncates em (y / 2 ^ k) := h.shiftRight k
  have hmantissa : em.mantissa = m / 2 ^ k := by
    rw [hem, mantissa_shiftRight, mantissa_ofMantissaAndAccuracy]
  have hfull : 2 ^ 52 ≤ em.mantissa ∨ t = -1074 := by
    rcases le_or_gt ((m.log2 : ℤ) + e - 52) (-1074) with hsmall | hlarge
    · right
      omega
    · left
      have hm : m ≠ 0 := by
        rintro rfl
        rw [Nat.log2_zero] at htarget hlarge
        omega
      rw [hmantissa, Nat.le_div_iff_mul_le (Nat.two_pow_pos k), ← pow_add,
        show 52 + k = m.log2 by omega]
      exact Nat.log2_self_le hm
  have hshort : em.mantissa < 2 ^ 53 := by
    rw [hmantissa, Nat.div_lt_iff_lt_mul (Nat.two_pow_pos k), ← pow_add]
    exact Nat.lt_log2_self.trans_le (Nat.pow_le_pow_right Nat.two_pos (by omega))
  have hround : em.roundedMantissa ≤ 2 ^ 53 := (roundedMantissa_le em).trans hshort
  obtain ⟨n, f, hcanonical, hvalue, hcarry⟩ := shiftToTargetExponent_rounded hround
    (show -1074 ≤ t by omega) (hfull.imp_left fun h => h.trans (le_roundedMantissa em))
  have hscale : y * 2 ^ e = y / 2 ^ k * 2 ^ t := by
    rw [← hexponent, zpow_add₀ (by norm_num), zpow_natCast]
    field_simp
  have hbrackets := htruncates.brackets hfull
  refine ⟨n, f, hcanonical, ⟨?_, ?_⟩, ?_⟩
  · rw [hvalue, hscale]
    exact hbrackets.le_of_le
  · rw [hvalue, hscale]
    exact hbrackets.ge_of_ge
  · have hfirst : shiftToTargetExponent .binary64 m e accuracy = (em, t) := by
      rw [shiftToTargetExponent, targetExponent_eq, htarget]
      simp only [shiftToExponent, hk, hexponent, hem]
    rw [roundWithAccuracy, hfirst]
    change signed s (shiftToTargetExponent .binary64 em.roundedMantissa t .exact).1.mantissa
      (shiftToTargetExponent .binary64 em.roundedMantissa t .exact).2 = _
    rw [hcarry]

theorem divCore_small (m : ℕ) (hn : 0 < n) (hm : 0 < m) (e f : ℤ) :
    ∃ k : ℕ, divCore .binary64 m e n f =
        (m <<< k / n, e - f - k, accuracyOfFraction (m <<< k % n) n) ∧
      e - f - k ≤ max ((m <<< k / n).log2 + (e - f - k) - 52) (-1074) := by
  have htarget : Format.binary64.targetExponent (totalExponent m e - totalExponent n f) =
      max ((m.log2 : ℤ) + e - (n.log2 + f) - 53) (-1074) := by
    simp only [Format.targetExponent, totalExponent, Format.mantissaBits, Format.minExponent]
    norm_num
    congr 1
    ring
  generalize hk : (e - f - min (e - f)
    (max ((m.log2 : ℤ) + e - (n.log2 + f) - 53) (-1074))).toNat = k
  refine ⟨k, ?_, ?_⟩
  · have hexponent : min (e - f) (max ((m.log2 : ℤ) + e - (n.log2 + f) - 53) (-1074)) =
        e - f - k := by omega
    rw [divCore, htarget, hk, hexponent]
  · rcases le_or_gt (e - f - (k : ℤ)) (-1074) with hsmall | hlarge
    · exact le_max_of_le_right hsmall
    · have hfull : 2 ^ 52 ≤ m <<< k / n := by
        have hdividend : 2 ^ (m.log2 + k) ≤ m <<< k := by
          rw [Nat.shiftLeft_eq, pow_add]
          exact Nat.mul_le_mul_right _ (Nat.log2_self_le hm.ne')
        rw [Nat.le_div_iff_mul_le hn]
        calc 2 ^ 52 * n ≤ 2 ^ 52 * 2 ^ (n.log2 + 1) :=
              Nat.mul_le_mul_left _ Nat.lt_log2_self.le
          _ = 2 ^ (52 + (n.log2 + 1)) := (pow_add ..).symm
          _ ≤ 2 ^ (m.log2 + k) := Nat.pow_le_pow_right Nat.two_pos (by omega)
          _ ≤ m <<< k := hdividend
      have hne : m <<< k / n ≠ 0 := by omega
      have hlog : 52 ≤ (m <<< k / n).log2 := (Nat.le_log2 hne).mpr hfull
      omega

theorem div_finite_eq (s t : Sign) (hm : 0 < m) (hn : 0 < n) (e f : ℤ) :
    ∃ l g, Canonical l g ∧ Brackets (m * 2 ^ e / (n * 2 ^ f)) l g ∧
      UnpackedFloat.div .binary64 (.finite s m e hm) (.finite t n f hn) = signed (s / t) l g := by
  obtain ⟨k, hcore, hready⟩ := divCore_small m hn hm e f
  obtain ⟨l, g, hcanonical, hbrackets, heq⟩ :=
    roundWithAccuracy_truncated (s / t) (truncates_div (m <<< k) hn) hready
  have hvalue : ((m <<< k : ℕ) : ℚ) / n * 2 ^ (e - f - k) = m * 2 ^ e / (n * 2 ^ f) := by
    have hn' : (n : ℚ) ≠ 0 := Nat.cast_ne_zero.mpr hn.ne'
    have hlong := shiftLeft_mul_two_zpow m k (e - f)
    rw [div_mul_eq_mul_div, hlong, zpow_sub₀ (by norm_num)]
    field_simp
  rw [hvalue] at hbrackets
  refine ⟨l, g, hcanonical, hbrackets, ?_⟩
  rw [UnpackedFloat.div, hcore]
  exact heq

end Dividing

section Quotients

variable {a b : Float} {x : ℚ}

theorem div_cases (ha : a.isFinite = true) (hb : b.isFinite = true) (hne : value b ≠ 0) :
    (value a = 0 ∧ ∃ s, a / b = .ofModel (.pack (.zero s))) ∨
      ∃ s m e x, Canonical m e ∧ Brackets x m e ∧ 0 ≤ x ∧
        value a / value b = (s.apply 1 : ℤ) * x ∧ a / b = ofSigned s m e := by
  have hdiv : a / b =
    .ofModel (.pack (.div .binary64 a.toModel.unpack b.toModel.unpack)) := rfl
  rcases zero_or_finite hb with ⟨hzero, -⟩ | ⟨t, n, f, hn, -, hvalue', hunpack'⟩
  · exact absurd hzero hne
  rcases zero_or_finite ha with ⟨hzero, s, hunpack⟩ | ⟨s, m, e, hm, -, hvalue, hunpack⟩
  · left
    rw [hunpack, hunpack'] at hdiv
    exact ⟨hzero, s / t, hdiv⟩
  · right
    obtain ⟨l, g, hcanonical, hbrackets, heq⟩ := div_finite_eq s t hm hn e f
    rw [hunpack, hunpack', heq] at hdiv
    refine ⟨s / t, l, g, _, hcanonical, hbrackets, by positivity, ?_, hdiv⟩
    have hproduct : (s / t).apply 1 = s.apply 1 * t.apply 1 := by
      cases s <;> cases t <;> rfl
    have hsigns : (((s / t).apply 1 : ℤ) : ℚ) = (s.apply 1 : ℤ) / (t.apply 1 : ℤ) := by
      rw [hproduct]
      cases s <;> cases t <;> norm_num [Sign.apply]
    rw [hvalue, hvalue', apply_mul s, apply_mul t, hsigns]
    exact mul_div_mul_comm ..

theorem rounds_div (ha : a.isFinite = true) (hb : b.isFinite = true) (hne : value b ≠ 0) :
    Rounds (value a / value b) (a / b) := by
  rcases div_cases ha hb hne with ⟨hzero, s, hdiv⟩ | ⟨s, m, e, x, hm, hx, hpos, hvalue, hdiv⟩
  · rw [hzero, zero_div, hdiv]
    exact rounds_zero s
  · rw [hvalue, hdiv]
    exact rounds_ofSigned hm hx hpos s

theorem two_zpow_mul_two_zpow {d e f : ℤ} (h : d + e = f) : (2 : ℚ) ^ d * 2 ^ e = 2 ^ f := by
  rw [← h, zpow_add₀ two_ne_zero]

theorem two_pow_mul_two_zpow {k : ℕ} {e f : ℤ} (h : (k : ℤ) + e = f) :
    ((2 ^ k : ℕ) : ℚ) * 2 ^ e = 2 ^ f := by
  rw [Nat.cast_pow, Nat.cast_ofNat, ← zpow_natCast, two_zpow_mul_two_zpow h]

theorem isFinite_ofSigned_of_le {m : ℕ} {e : ℤ} (hm : Canonical m e) (hx : Brackets x m e)
    (hbig : (2 : ℚ) ^ (1024 : ℤ) ≤ x) (s : Sign) : (ofSigned s m e).isFinite = false := by
  have hpower : Canonical (2 ^ 52) 972 := ⟨by norm_num, by norm_num, .inl le_rfl⟩
  have hvalue : ((2 ^ 52 : ℕ) : ℚ) * 2 ^ (972 : ℤ) = 2 ^ (1024 : ℤ) :=
    two_pow_mul_two_zpow (by norm_num)
  have hle := hx.le_of_le _ _ hpower (hvalue.trans_le hbig)
  have he : 971 < e := by
    by_contra hsmall
    exact (hm.lt_of_lt le_rfl (by omega)).not_ge hle
  have hne : m ≠ 0 := by
    rintro rfl
    rw [hvalue, Nat.cast_zero, zero_mul] at hle
    exact hle.not_gt (two_zpow_pos 1024)
  change (ofSigned s m e).toModel.unpack.isFinite = false
  rw [show (ofSigned s m e).toModel.unpack = .infinity s from unpack_pack_signed_of_lt hne he s]
  rfl

theorem isFinite_div_of_le (ha : a.isFinite = true) (hb : b.isFinite = true) (hpos : 0 < value b)
    (hbig : (2 : ℚ) ^ (1024 : ℤ) ≤ value a / value b) : (a / b).isFinite = false := by
  rcases div_cases ha hb hpos.ne' with ⟨hzero, -⟩ | ⟨s, m, e, x, hm, hx, hx0, hvalue, hdiv⟩
  · rw [hzero, zero_div] at hbig
    exact absurd hbig (two_zpow_pos 1024).not_ge
  · have hle : value a / value b ≤ x := by
      rw [hvalue]
      cases s with
      | negative =>
        simp only [Sign.apply, Int.cast_neg, Int.cast_one]
        linarith
      | positive => simp [Sign.apply]
    rw [hdiv]
    exact isFinite_ofSigned_of_le hm hx (hbig.trans hle) s

theorem unpack_eq_infinity (hb : 0 ≤ b) (hover : b.isFinite = false) :
    b.toModel.unpack = .infinity .positive := by
  refine (float_zero_le_iff.mp hb).isFinite_or_eq.resolve_left fun hfinite => ?_
  have hfinite' : b.isFinite = true := hfinite
  rw [hover] at hfinite'
  cases hfinite'

theorem div_infinity (ha : a.isFinite = true) (hb : 0 ≤ b) (hover : b.isFinite = false) :
    (a / b).isFinite = true ∧ value (a / b) = 0 := by
  have hzero : ∃ s, a / b = .ofModel (.pack (.zero s)) := by
    have hdiv : a / b =
      .ofModel (.pack (.div .binary64 a.toModel.unpack b.toModel.unpack)) := rfl
    rw [unpack_eq_infinity hb hover] at hdiv
    rcases zero_or_finite ha with ⟨-, s, hunpack⟩ | ⟨s, m, e, hm, -, -, hunpack⟩
    · rw [hunpack] at hdiv
      exact ⟨_, hdiv⟩
    · rw [hunpack] at hdiv
      exact ⟨_, hdiv⟩
  obtain ⟨s, hs⟩ := hzero
  rw [hs]
  exact (rounds_zero s).value_eq isFinite_zero value_zero

theorem isNaN_div (h : (∃ s t, a.toModel.unpack = .zero s ∧ b.toModel.unpack = .zero t) ∨
      ∃ s t, a.toModel.unpack = .infinity s ∧ b.toModel.unpack = .infinity t) :
    (a / b).isNaN = true := by
  have hnone : UnpackedFloat.div .binary64 a.toModel.unpack b.toModel.unpack = .notANumber := by
    rcases h with ⟨s, t, ha, hb⟩ | ⟨s, t, ha, hb⟩ <;> rw [ha, hb] <;> rfl
  change (UnpackedFloat.unpack .binary64 (pack .binary64
    (.div .binary64 a.toModel.unpack b.toModel.unpack))).isNaN = true
  rw [hnone, pack, UnpackedFloat.unpack_packedNaN]
  rfl

theorem isNaN_add_of_right (hb : b.isNaN = true) : (a + b).isNaN = true := by
  have hunpack : b.toModel.unpack = .notANumber := by
    have hb' : b.toModel.unpack.isNaN = true := hb
    revert hb'
    cases b.toModel.unpack <;> simp [UnpackedFloat.isNaN]
  have hnone : UnpackedFloat.add .binary64 a.toModel.unpack b.toModel.unpack = .notANumber := by
    rw [hunpack]
    cases a.toModel.unpack <;> rfl
  change (UnpackedFloat.unpack .binary64 (pack .binary64
    (.add .binary64 a.toModel.unpack b.toModel.unpack))).isNaN = true
  rw [hnone, pack, UnpackedFloat.unpack_packedNaN]
  rfl

end Quotients

end PopulationSearch.Binary64
