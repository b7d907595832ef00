import PopulationSearch.Proofs.DoubleLaws

/-! The draws of the seeded generator. Three roundings do not carry a number past its upper end. -/

namespace PopulationSearch.Generator

open Float.Model.UnpackedFloat (Sign)
open Binary64

section Uniform

theorem value_ofBits_power : value (Float.ofBits 0x3CB0000000000000) = 2 ^ (-52 : ℤ) := by
  have hunpack : (Float.ofBits 0x3CB0000000000000).toModel.unpack =
      signed .positive (2 ^ 52) (-104) := rfl
  rw [value_of_unpack_eq hunpack, apply_positive]
  norm_num

theorem value_scaled {w : UInt64} {scale : Float} {e : ℤ} (hw : w.toNat < 2 ^ 53)
    (hscale : scale.isFinite = true) (hvalue : value scale = 2 ^ e) (hleast : -1074 ≤ e)
    (hmost : e ≤ 971) :
    (w.toFloat * scale).isFinite = true ∧ value (w.toFloat * scale) = w.toNat * 2 ^ e := by
  obtain ⟨b, hb, hwhole⟩ := exists_value_eq hw (e := 0) (by norm_num) (by norm_num)
  rw [zpow_zero, mul_one] at hwhole
  obtain ⟨hfinite, hexact⟩ := (rounds_toFloat w).value_eq hb hwhole
  obtain ⟨b', hb', hproduct⟩ := exists_value_eq hw hleast hmost
  have hrounds := rounds_mul hfinite hscale
  rw [hexact, hvalue] at hrounds
  exact hrounds.value_eq hb' hproduct

theorem toNat_shiftRight_lt (w : UInt64) {k : ℕ} (hk : k < 64) :
    (w >>> UInt64.ofNat k).toNat < 2 ^ (64 - k) := by
  have hword := w.toNat_lt
  have hsplit : 2 ^ 64 = 2 ^ (64 - k) * 2 ^ k := by
    rw [← pow_add]
    congr 1
    omega
  have hshift : (UInt64.ofNat k).toNat % 64 = k := by
    rw [UInt64.toNat_ofNat']
    omega
  rw [UInt64.toNat_shiftRight, hshift, Nat.shiftRight_eq_div_pow]
  exact Nat.div_lt_of_lt_mul (by rwa [mul_comm, ← hsplit])

theorem unit_mem (g : Generator) : Interval.contains 0 1 (unit g).1 = true := by
  have hword : (g.doubleWord.1 >>> 11).toNat < 2 ^ 53 :=
    toNat_shiftRight_lt g.doubleWord.1 (k := 11) (by norm_num)
  have hscale : value (Float.ofBits 0x3CA0000000000000) = 2 ^ (-53 : ℤ) := by
    have hunpack : (Float.ofBits 0x3CA0000000000000).toModel.unpack =
        signed .positive (2 ^ 52) (-105) := rfl
    rw [value_of_unpack_eq hunpack, apply_positive]
    norm_num
  obtain ⟨hfinite, hvalue⟩ := value_scaled hword (by decide +kernel) hscale (by norm_num)
    (by norm_num)
  have hlt : ((g.doubleWord.1 >>> 11).toNat : ℚ) < 2 ^ 53 := by exact_mod_cast hword
  have hone : (2 : ℚ) ^ 53 * 2 ^ (-53 : ℤ) = 1 := by norm_num
  have hpower := two_zpow_pos (-53)
  change Interval.contains (0 : Float) 1 ((g.doubleWord.1 >>> 11).toFloat * _) = true
  rw [Interval.contains_iff, zero_le_value hfinite, le_one_value hfinite, hvalue, ← hone]
  exact ⟨by positivity, mul_le_mul_of_nonneg_right hlt.le hpower.le⟩

theorem exists_value_eq_of_nonneg {a : Float} (ha : a.isFinite = true) (h : 0 ≤ value a) :
    ∃ m e, Canonical m e ∧ e ≤ 971 ∧ value a = m * 2 ^ e := by
  obtain ⟨s, m, e, hm, he, -, hvalue⟩ := exists_signed ha
  refine ⟨m, e, hm, he, ?_⟩
  cases s with
  | negative =>
    have hpower := two_zpow_pos e
    have hmagnitude : (0 : ℚ) ≤ m * 2 ^ e := by positivity
    simp only [Sign.apply, Int.cast_neg, Int.cast_natCast] at hvalue
    linarith
  | positive => exact hvalue

theorem exists_value_eq_least {a : Float} (ha : a.isFinite = true) :
    ∃ k : ℤ, value a = k * 2 ^ (-1074 : ℤ) := by
  obtain ⟨s, m, e, hm, -, -, hvalue⟩ := exists_signed ha
  refine ⟨s.apply 1 * (m * 2 ^ (e - -1074).toNat : ℕ), ?_⟩
  rw [hvalue, apply_mul, mul_two_zpow_of_le m hm.least_le, Int.cast_mul, Int.cast_natCast,
    mul_assoc]

theorem value_sub_of_lt {lo hi : Float} (hlo : lo.isFinite = true) (hhi : hi.isFinite = true)
    (hle : lo ≤ hi) {m : ℕ} (hm : m < 2 ^ 53)
    (h : value hi - value lo < m * 2 ^ (-1074 : ℤ)) : value (hi - lo) = value hi - value lo := by
  obtain ⟨k, hk⟩ := exists_value_eq_least hhi
  obtain ⟨l, hl⟩ := exists_value_eq_least hlo
  have hexact : value hi - value lo = ((k - l : ℤ) : ℚ) * 2 ^ (-1074 : ℤ) := by
    rw [hk, hl, Int.cast_sub, sub_mul]
  have hnonneg : (0 : ℚ) ≤ (k - l : ℤ) := by
    refine nonneg_of_mul_nonneg_left ?_ (two_zpow_pos (-1074))
    rw [← hexact]
    exact sub_nonneg.mpr ((le_iff_value hlo hhi).mp hle)
  obtain ⟨n, hn⟩ := Int.eq_ofNat_of_zero_le (Int.cast_nonneg_iff.mp hnonneg)
  rw [hn, Int.cast_natCast] at hexact
  have hshort : n < m := by
    by_contra hge
    rw [hexact, lt_iff_not_ge, mul_two_zpow_le_iff] at h
    exact h (not_lt.mp hge)
  obtain ⟨b, hb, hvalue⟩ := exists_value_eq (hshort.trans hm) le_rfl (by norm_num)
  exact ((rounds_sub hhi hlo).value_eq hb (hvalue.trans hexact.symm)).2

theorem exists_le_width {lo hi : Float} (hlo : lo.isFinite = true) (hhi : hi.isFinite = true)
    (hle : lo ≤ hi) (hwidth : (hi - lo).isFinite = true) :
    ∃ c : Float, c.isFinite = true ∧ value c ≤ value hi - value lo ∧
      (1 - 2 ^ (-52 : ℤ)) * value (hi - lo) ≤ value c := by
  have hrounds := rounds_sub hhi hlo
  have horder := sub_nonneg.mpr ((le_iff_value hlo hhi).mp hle)
  have hnonneg := (zero_le_value hwidth).mp (hrounds.zero_le horder)
  rcases le_or_gt (value (hi - lo)) (value hi - value lo) with h | h
  · refine ⟨hi - lo, hwidth, h, ?_⟩
    have hcut : (0 : ℚ) ≤ 2 ^ (-52 : ℤ) * value (hi - lo) := by positivity
    linarith
  obtain ⟨m, e, hm, he, hvalue⟩ := exists_value_eq_of_nonneg hwidth hnonneg
  rw [hvalue] at h
  rcases hm.full with hfull | rfl
  · -- the width is rounded up past the double below, so that is at most the width
    have hpos : 0 < m := lt_of_lt_of_le (by norm_num) hfull
    have hshorter := hm.mantissa_lt
    obtain ⟨c, hc, hvaluec⟩ := exists_value_eq (m := m - 1) (by omega) hm.least_le he
    refine ⟨c, hc, ?_, ?_⟩
    · by_contra hlt
      have hpast := hrounds.ge_of_ge c hc (le_of_lt (not_le.mp hlt))
      rw [le_iff_value hwidth hc, hvalue, hvaluec, mul_two_zpow_le_iff] at hpast
      omega
    · have hone : (1 : ℚ) ≤ 2 ^ (-52 : ℤ) * m := by
        have hcast : ((2 ^ 52 : ℕ) : ℚ) ≤ m := Nat.cast_le.mpr hfull
        have hunit : (2 : ℚ) ^ (-52 : ℤ) * ((2 ^ 52 : ℕ) : ℚ) = 1 := by norm_num
        rw [← hunit]
        exact mul_le_mul_of_nonneg_left hcast (two_zpow_pos (-52)).le
      have hcut := mul_le_mul_of_nonneg_right hone (two_zpow_pos e).le
      rw [hvalue, hvaluec, Nat.cast_sub hpos, Nat.cast_one]
      linarith
  · have hexact := value_sub_of_lt hlo hhi hle hm.mantissa_lt h
    rw [← hexact, hvalue] at h
    exact absurd h (lt_irrefl _)

theorem between_mem {lo hi : Float} (g : Generator) (h : Interval.Proper lo hi)
    (hwidth : (hi - lo).isFinite = true) : Interval.contains lo hi (between lo hi g).1 = true := by
  have hword : (g.doubleWord.1 >>> 12).toNat < 2 ^ 52 :=
    toNat_shiftRight_lt g.doubleWord.1 (k := 12) (by norm_num)
  obtain ⟨hfinite, hvalue⟩ := value_scaled (hword.trans (by norm_num)) (by decide +kernel)
    value_ofBits_power (by norm_num) (by norm_num)
  obtain ⟨c, hc, hbelow, hcut⟩ := exists_le_width h.isFinite_lower h.isFinite_upper h.le hwidth
  generalize hw : (g.doubleWord.1 >>> 12).toNat = k at hword hvalue
  generalize hu : (g.doubleWord.1 >>> 12).toFloat * Float.ofBits 0x3CB0000000000000 = u at *
  have hdraw : (between lo hi g).1 = u * (hi - lo) + lo := by rw [← hu]; rfl
  have hunit : (2 : ℚ) ^ 52 * 2 ^ (-52 : ℤ) = 1 := by norm_num
  have hpower := two_zpow_pos (-52)
  have hu0 : 0 ≤ value u := by
    rw [hvalue]
    positivity
  have hu1 : value u ≤ 1 - 2 ^ (-52 : ℤ) := by
    have hcast : (k : ℚ) + 1 ≤ 2 ^ 52 := by exact_mod_cast hword
    have hscaled := mul_le_mul_of_nonneg_right hcast hpower.le
    rw [hunit, add_mul, one_mul] at hscaled
    linarith
  have hscale : 0 ≤ value (hi - lo) := (zero_le_value hwidth).mp
    (FiniteArithmetic.zero_le_sub lo hi h.isFinite_lower h.isFinite_upper h.le)
  have hpart := rounds_mul hfinite hwidth
  have hpart0 := hpart.zero_le (mul_nonneg hu0 hscale)
  -- the factor is at most `1 - 2 ^ -52`, so the rounded part of the rounded width is at most `c`
  have hpartc := hpart.ge_of_ge c hc ((mul_le_mul_of_nonneg_right hu1 hscale).trans hcut)
  have hpartfinite := isFinite_of_le_of_le isFinite_zero hc hpart0 hpartc
  have hsum := rounds_add hpartfinite h.isFinite_lower
  rw [zero_le_value hpartfinite] at hpart0
  rw [le_iff_value hpartfinite hc] at hpartc
  rw [hdraw, Interval.contains_iff]
  exact ⟨hsum.le_of_le lo h.isFinite_lower (by linarith),
    hsum.ge_of_ge hi h.isFinite_upper (by linarith)⟩

instance : UniformDraws Generator where
  unit_mem := unit_mem
  between_mem := fun _ _ g h hwidth => between_mem g h hwidth

end Uniform

section Sampling

theorem distinctBelow_succ {j t : ℕ} {chosen : List ℕ} (h : DistinctBelow j chosen) (ht : t ≤ j) :
    DistinctBelow (j + 1) ((chosen.map fun c => if c = t then j else c) ++ [t]) := by
  have hinj : ∀ c ∈ chosen, ∀ c' ∈ chosen,
      (if c = t then j else c) = (if c' = t then j else c') → c = c' := by
    intro c hc c' hc' heq
    have hlt := h.lt c hc
    have hlt' := h.lt c' hc'
    split_ifs at heq <;> omega
  have hmoved := h.nodup.map_on hinj
  have hfree : t ∉ chosen.map fun c => if c = t then j else c := by
    intro hmem
    obtain ⟨c, hc, heq⟩ := List.mem_map.mp hmem
    have hlt := h.lt c hc
    split_ifs at heq <;> omega
  refine ⟨hmoved.append (List.nodup_singleton t) (List.disjoint_singleton.mpr hfree), ?_⟩
  intro i hi
  rcases List.mem_append.mp hi with hi | hi
  · obtain ⟨c, hc, rfl⟩ := List.mem_map.mp hi
    have hlt := h.lt c hc
    split_ifs <;> omega
  · rw [List.mem_singleton.mp hi]
    omega

theorem sampleBelow_range' (j k : ℕ) {chosen : List ℕ} (h : DistinctBelow j chosen)
    (g : Generator) :
    (sampleBelow (List.range' j k) chosen g).1.length = chosen.length + k ∧
      DistinctBelow (j + k) (sampleBelow (List.range' j k) chosen g).1 := by
  induction k generalizing j chosen g with
  | zero => exact ⟨rfl, h⟩
  | succ k ih =>
    have ht : (index (j + 1) g).1 ≤ j := Nat.le_of_lt_succ (index_lt (j + 1) g (Nat.succ_pos j))
    obtain ⟨hlen, hdistinct⟩ := ih (j + 1) (distinctBelow_succ h ht) (index (j + 1) g).2
    rw [List.length_append, List.length_map, List.length_singleton] at hlen
    rw [Nat.add_right_comm] at hdistinct
    rw [List.range'_succ, sampleBelow]
    exact ⟨hlen.trans (Nat.add_right_comm ..), hdistinct⟩

theorem sample_distinct (n amount : ℕ) (g : Generator) (h : amount ≤ n) :
    (sample n amount g).1.length = amount ∧ DistinctBelow n (sample n amount g).1 := by
  have hempty : DistinctBelow (n - amount) [] := ⟨List.nodup_nil, nofun⟩
  have hsample := sampleBelow_range' (n - amount) amount hempty g
  rwa [List.length_nil, Nat.zero_add, Nat.sub_add_cancel h] at hsample

instance : DistinctSamples Generator where
  length_sample := fun n amount g h => (sample_distinct n amount g h).1
  distinct_sample := fun n amount g h => (sample_distinct n amount g h).2

end Sampling

end PopulationSearch.Generator
