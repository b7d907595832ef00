import PopulationSearch.Proofs.Quotients
import PopulationSearch.Proofs.Wheel

/-! A positive double has a positive reciprocal unless it is infinite, and a finite one if it is
above `2 ^ -1024`. -/

namespace PopulationSearch

open Float.Model (UnpackedFloat)
open Float.Model.UnpackedFloat (Sign)

structure Usable (x : Float) : Prop where
  zero_lt : 0 < x
  isFinite : x.isFinite = true

def reciprocalFloor : Float := Float.ofBits 0x0004000000000000

/-- A number that neither has overflowed nor has a reciprocal that does. -/
structure Tame (x : Float) : Prop where
  floor_lt : reciprocalFloor < x
  isFinite : x.isFinite = true

namespace Binary64

section Sizes

variable {a b x : Float}

theorem lt_iff_value (ha : a.isFinite = true) (hb : b.isFinite = true) :
    a < b ↔ value a < value b := by
  have hle : b ≤ a ↔ _ := ComparableScalar.le_iff_not_lt b a
  have hna : Scalar.isNaN a = false := isNaN_of_isFinite ha
  have hnb : Scalar.isNaN b = false := isNaN_of_isFinite hb
  rw [← not_le, ← le_iff_value hb ha, hle, hna, hnb]
  simp

theorem value_pos (ha : a.isFinite = true) : 0 < a ↔ 0 < value a := by
  rw [lt_iff_value isFinite_zero ha, value_zero]

theorem value_lt (ha : a.isFinite = true) : value a < 2 ^ (1024 : ℤ) := by
  obtain ⟨s, m, e, hm, he, -, hvalue⟩ := exists_signed ha
  have hmagnitude : (m : ℚ) * 2 ^ e < 2 ^ (1024 : ℤ) := by
    have hpower : ((2 ^ 52 : ℕ) : ℚ) * 2 ^ (972 : ℤ) = 2 ^ (1024 : ℤ) :=
      two_pow_mul_two_zpow (by norm_num)
    rw [← hpower]
    exact hm.lt_of_lt le_rfl (by omega)
  have hpos : (0 : ℚ) ≤ m * 2 ^ e := mul_nonneg (Nat.cast_nonneg m) (two_zpow_pos e).le
  rw [hvalue]
  cases s with
  | negative =>
    rw [apply_negative, neg_mul]
    exact (neg_nonpos.mpr hpos).trans_lt (two_zpow_pos 1024)
  | positive =>
    rw [apply_positive]
    exact hmagnitude

theorem isFinite_floor : reciprocalFloor.isFinite = true := by decide +kernel

theorem value_floor : value reciprocalFloor = 2 ^ (-1024 : ℤ) := by
  have hunpack : reciprocalFloor.toModel.unpack = signed .positive (2 ^ 50) (-1074) := rfl
  rw [value_of_unpack_eq hunpack, apply_positive]
  exact two_pow_mul_two_zpow (by norm_num)

theorem step_le_value (ha : a.isFinite = true) (h : 2 ^ (-1024 : ℤ) < value a) :
    ((2 ^ 50 + 1 : ℕ) : ℚ) * 2 ^ (-1074 : ℤ) ≤ value a := by
  obtain ⟨s, m, e, hm, -, -, hvalue⟩ := exists_signed ha
  cases s with
  | negative =>
    have hpos : (0 : ℚ) ≤ m * 2 ^ e := mul_nonneg (Nat.cast_nonneg m) (two_zpow_pos e).le
    rw [hvalue, apply_negative, neg_mul] at h
    exact absurd (h.trans_le (neg_nonpos.mpr hpos)) (two_zpow_pos (-1024)).not_gt
  | positive =>
    rw [apply_positive, mul_two_zpow_of_le m hm.least_le] at hvalue
    have hfloor : ((2 ^ 50 : ℕ) : ℚ) * 2 ^ (-1074 : ℤ) < value a :=
      (two_pow_mul_two_zpow (by norm_num)).trans_lt h
    rw [hvalue, mul_lt_mul_iff_left₀ (two_zpow_pos _), Nat.cast_lt] at hfloor
    rw [hvalue, mul_two_zpow_le_iff]
    exact hfloor

end Sizes

section Reciprocals

variable {a x : Float}

theorem floor_lt_of_isFinite_div (ha : a.isFinite = true) (hone : 1 ≤ value a) (hx : 0 < x)
    (h : (a / x).isFinite = true) : reciprocalFloor < x := by
  by_contra hlow
  have hnumber := ComparableScalar.isNaN_of_lt 0 x hx
  have hle : x ≤ reciprocalFloor := ComparableScalar.le_of_not_lt hnumber.2
    (isNaN_of_isFinite isFinite_floor) hlow
  have hfinite : x.isFinite = true :=
    isFinite_of_le_of_le isFinite_zero isFinite_floor (ComparableScalar.le_of_lt hx) hle
  have hpos := (value_pos hfinite).mp hx
  rw [le_iff_value hfinite isFinite_floor, value_floor] at hle
  have hbig : (2 : ℚ) ^ (1024 : ℤ) ≤ value a / value x := by
    rw [le_div_iff₀ hpos]
    calc (2 : ℚ) ^ (1024 : ℤ) * value x ≤ 2 ^ (1024 : ℤ) * 2 ^ (-1024 : ℤ) :=
          mul_le_mul_of_nonneg_left hle (two_zpow_pos 1024).le
      _ = 2 ^ (0 : ℤ) := two_zpow_mul_two_zpow (add_neg_cancel 1024)
      _ = 1 := zpow_zero 2
      _ ≤ value a := hone
  rw [isFinite_div_of_le ha hfinite hpos hbig] at h
  cases h

theorem isFinite_one_div_iff (hx : 0 < x) : (1 / x).isFinite = true ↔ reciprocalFloor < x := by
  constructor
  · exact floor_lt_of_isFinite_div isFinite_one value_one.ge hx
  · intro hfloor
    by_cases hfinite : x.isFinite = true
    case neg =>
      exact (div_infinity isFinite_one (ComparableScalar.le_of_lt hx)
        (Bool.not_eq_true _ ▸ hfinite)).1
    have hpos := (value_pos hfinite).mp hx
    rw [lt_iff_value isFinite_floor hfinite, value_floor] at hfloor
    have hstep := step_le_value hfinite hfloor
    obtain ⟨b, hb, hvalue⟩ := exists_value_eq (m := 2 ^ 53 - 1) (e := 971) (by norm_num)
      (by norm_num) le_rfl
    have hrounds := rounds_div isFinite_one hfinite hpos.ne'
    rw [value_one] at hrounds
    refine isFinite_of_le_of_le isFinite_zero hb (hrounds.zero_le (by positivity))
      (hrounds.ge_of_ge b hb ?_)
    have hproduct : 1 ≤ ((2 ^ 53 - 1 : ℕ) : ℚ) * 2 ^ (971 : ℤ) *
        (((2 ^ 50 + 1 : ℕ) : ℚ) * 2 ^ (-1074 : ℤ)) := by
      rw [mul_mul_mul_comm, two_zpow_mul_two_zpow (show (971 : ℤ) + -1074 = -103 by norm_num)]
      norm_num
    rw [hvalue, div_le_iff₀ hpos]
    exact hproduct.trans (mul_le_mul_of_nonneg_left hstep (by positivity))

theorem zero_lt_div_iff (ha : a.isFinite = true) (hone : 1 ≤ value a) (hx : 0 < x) :
    0 < a / x ↔ x.isFinite = true := by
  by_cases hfinite : x.isFinite = true
  · refine iff_of_true ?_ hfinite
    have hpos := (value_pos hfinite).mp hx
    obtain ⟨b, hb, hvalue⟩ := exists_value_eq (m := 1) (e := -1074) (by norm_num) le_rfl
      (by norm_num)
    have hleast : (0 : ℚ) < value b := by
      rw [hvalue]
      positivity
    refine ComparableScalar.lt_of_lt_of_le ((value_pos hb).mpr hleast)
      ((rounds_div ha hfinite hpos.ne').le_of_le b hb ?_)
    rw [hvalue, Nat.cast_one, one_mul, le_div_iff₀ hpos]
    calc (2 : ℚ) ^ (-1074 : ℤ) * value x ≤ 2 ^ (-1074 : ℤ) * 2 ^ (1024 : ℤ) :=
          mul_le_mul_of_nonneg_left (value_lt hfinite).le (two_zpow_pos (-1074)).le
      _ = 2 ^ (-50 : ℤ) := two_zpow_mul_two_zpow (by norm_num)
      _ ≤ 1 := zpow_le_one_of_nonpos₀ one_le_two (by norm_num)
      _ ≤ value a := hone
  · refine iff_of_false (fun hlt => ?_) hfinite
    obtain ⟨hquotient, hzero⟩ := div_infinity ha (ComparableScalar.le_of_lt hx)
      (Bool.not_eq_true _ ▸ hfinite)
    rw [value_pos hquotient, hzero] at hlt
    exact lt_irrefl 0 hlt

theorem usable_one_div_iff (hx : 0 < x) : Usable (1 / x) ↔ Tame x := by
  have hpos := zero_lt_div_iff isFinite_one value_one.ge hx
  have hfinite := isFinite_one_div_iff hx
  exact ⟨fun h => ⟨hfinite.mp h.isFinite, hpos.mp h.zero_lt⟩,
    fun h => ⟨hpos.mpr h.isFinite, hfinite.mpr h.floor_lt⟩⟩

end Reciprocals

section Budgets

variable {a b x : Float} {j k n : ℕ} {e : ℤ}

/-- A nonnegative number of at most `k` units of size `2 ^ e`. -/
structure Budgeted (k : ℕ) (e : ℤ) (x : Float) : Prop where
  isFinite : x.isFinite = true
  zero_le : 0 ≤ value x
  le : value x ≤ k * 2 ^ e

theorem Rounds.budgeted {y : ℚ} (h : Rounds y x) (hy : 0 ≤ y) (hle : y ≤ k * 2 ^ e)
    (hk : k < 2 ^ 53) (hleast : -1074 ≤ e) (hmost : e ≤ 971) : Budgeted k e x := by
  obtain ⟨b, hb, hvalue⟩ := exists_value_eq hk hleast hmost
  have hpos := h.zero_le hy
  have hbound := h.ge_of_ge b hb (hle.trans_eq hvalue.symm)
  have hfinite := isFinite_of_le_of_le isFinite_zero hb hpos hbound
  rw [zero_le_value hfinite] at hpos
  rw [le_iff_value hfinite hb, hvalue] at hbound
  exact ⟨hfinite, hpos, hbound⟩

theorem Budgeted.add (ha : Budgeted j e a) (hb : Budgeted k e b) (hjk : j + k < 2 ^ 53)
    (hleast : -1074 ≤ e) (hmost : e ≤ 971) : Budgeted (j + k) e (a + b) := by
  refine (rounds_add ha.isFinite hb.isFinite).budgeted (add_nonneg ha.zero_le hb.zero_le) ?_ hjk
    hleast hmost
  rw [Nat.cast_add, add_mul]
  exact add_le_add ha.le hb.le

theorem Budgeted.foldl_add {l : List Float} (hl : ∀ b ∈ l, Budgeted k e b)
    (ha : Budgeted j e a) (hcount : j + l.length * k < 2 ^ 53) (hleast : -1074 ≤ e)
    (hmost : e ≤ 971) : Budgeted (j + l.length * k) e (l.foldl (· + ·) a) := by
  induction l generalizing a j with
  | nil => simpa using ha
  | cons b l ih =>
    obtain ⟨hb, hl⟩ := List.forall_mem_cons.mp hl
    rw [List.length_cons, Nat.succ_mul, Nat.add_comm (l.length * k), ← Nat.add_assoc] at hcount ⊢
    exact ih hl (ha.add hb (by omega) hleast hmost) hcount

theorem budgeted_zero (hx : x.isFinite = true) (hvalue : value x = 0) (e : ℤ) :
    Budgeted 0 e x := by
  refine ⟨hx, hvalue.ge, ?_⟩
  rw [Nat.cast_zero, zero_mul]
  exact hvalue.le

theorem Budgeted.value_eq_zero (h : Budgeted 0 e x) : value x = 0 := by
  refine le_antisymm (h.le.trans_eq ?_) h.zero_le
  rw [Nat.cast_zero, zero_mul]

theorem value_neg_zero : value (-0) = 0 := by
  rw [value_neg, value_zero, neg_zero]

theorem isFinite_neg_zero : (-0 : Float).isFinite = true := by decide +kernel

theorem exists_zero_of_value_eq (hx : x.isFinite = true) (hvalue : value x = 0) :
    ∃ s, x.toModel.unpack = .zero s := by
  rcases zero_or_finite hx with ⟨-, hzero⟩ | ⟨s, m, e, hm, -, heq, -⟩
  · exact hzero
  · have hpos : (0 : ℚ) < m * 2 ^ e := mul_pos (Nat.cast_pos.mpr hm) (two_zpow_pos e)
    rw [heq] at hvalue
    cases s with
    | negative =>
      rw [apply_negative, neg_mul, neg_eq_zero] at hvalue
      exact absurd hvalue hpos.ne'
    | positive =>
      rw [apply_positive] at hvalue
      exact absurd hvalue hpos.ne'

end Budgets

section Counts

variable {a x : Float} {n : ℕ}

theorem one_le_value_ofNat (hn : 0 < n) (hsize : n < UInt64.size) :
    1 ≤ value (Float.ofNat n) := by
  have hone : (1 : Float) ≤ Float.ofNat n := by
    refine (rounds_ofNat n).le_of_le 1 isFinite_one ?_
    rw [value_one]
    exact_mod_cast hn
  rwa [le_iff_value isFinite_one (isFinite_ofNat hsize), value_one] at hone

theorem value_ofNat_le (hsize : n < UInt64.size) : value (Float.ofNat n) ≤ 2 ^ (64 : ℤ) := by
  obtain ⟨b, hb, hvalue⟩ := exists_value_eq (m := 1) (e := 64) (by norm_num) (by norm_num)
    (by norm_num)
  rw [Nat.cast_one, one_mul] at hvalue
  have hle : Float.ofNat n ≤ b := by
    refine (rounds_ofNat n).ge_of_ge b hb ?_
    rw [hvalue]
    exact_mod_cast hsize.le
  rwa [le_iff_value (isFinite_ofNat hsize) hb, hvalue] at hle

theorem le_mul_of_one_le (ha : a.isFinite = true) (hone : 1 ≤ value a) (hx : 0 < x) :
    x ≤ a * x := by
  have hx0 : 0 ≤ x := ComparableScalar.le_of_lt hx
  by_cases hfinite : x.isFinite = true
  · refine (rounds_mul ha hfinite).le_of_le x hfinite ?_
    exact le_mul_of_one_le_left ((zero_le_value hfinite).mp hx0) hone
  · have hover := unpack_eq_infinity hx0 (Bool.not_eq_true _ ▸ hfinite)
    have hpositive : ∃ m e hm, a.toModel.unpack = .finite .positive m e hm := by
      have ha0 : 0 ≤ a := (zero_le_value ha).mpr (zero_le_one.trans hone)
      rcases zero_or_finite ha with ⟨hzero, -⟩ | ⟨s, m, e, hm, -, -, hunpack⟩
      · rw [hzero] at hone
        exact absurd hone (by norm_num)
      · have hnonneg := float_zero_le_iff.mp ha0
        rw [hunpack] at hnonneg
        cases hnonneg
        exact ⟨m, e, hm, hunpack⟩
    obtain ⟨m, e, hm, hunpack⟩ := hpositive
    have hproduct : (a * x).toModel.unpack = .infinity .positive := by
      change UnpackedFloat.unpack .binary64 (UnpackedFloat.pack .binary64
        (.mul .binary64 a.toModel.unpack x.toModel.unpack)) = _
      rw [hunpack, hover]
      simp [UnpackedFloat.mul, UnpackedFloat.pack, UnpackedFloat.packedInfinity,
        UnpackedFloat.unpack]
      rfl
    rw [float_le_iff, hproduct]
    exact le_infinity (float_zero_le_iff.mp hx0).isNaN_eq

end Counts
end Binary64

namespace Wheel

open Binary64

theorem zero_le_go {α : Type} [Scalar α] [NonnegativeSums α] (total : α) {reached : α}
    {l : List α} (hreached : 0 ≤ reached) (hl : ∀ w ∈ l, 0 ≤ w / total) :
    ∀ stop ∈ cumulative.go total reached l, 0 ≤ stop := by
  induction l generalizing reached with
  | nil => exact nofun
  | cons w l ih =>
    obtain ⟨hw, hl⟩ := List.forall_mem_cons.mp hl
    have hnext := NonnegativeSums.zero_le_add reached (w / total) hreached hw
    exact List.forall_mem_cons.mpr ⟨hnext, ih hnext hl⟩

variable {weights : List Float}

theorem exists_isNaN_go (total reached : Float) {w : Float} (hw : w ∈ weights)
    (hshare : (w / total).isNaN = true) :
    ∃ stop ∈ cumulative.go total reached weights, stop.isNaN = true := by
  induction weights generalizing reached with
  | nil => cases hw
  | cons v l ih =>
    rcases List.mem_cons.mp hw with rfl | hw
    · exact ⟨_, List.mem_cons_self .., isNaN_add_of_right hshare⟩
    · obtain ⟨stop, hstop, hnone⟩ := ih (reached + v / total) hw
      exact ⟨stop, List.mem_cons_of_mem _ hstop, hnone⟩

theorem isNaN_cumulative_iff (hne : weights ≠ []) (h : ∀ w ∈ weights, 0 ≤ w) :
    (∀ stop ∈ cumulative weights, stop.isNaN = false) ↔
      (∀ w ∈ weights, w.isFinite = true) ∧ ∃ w ∈ weights, 0 < w := by
  have hshare (w : Float) (hw : w ∈ weights)
      (hnumbers : ∀ stop ∈ cumulative weights, stop.isNaN = false) :
      ¬ (w / Scalar.sum weights).isNaN = true := by
    intro hnone
    obtain ⟨stop, hstop, hnone'⟩ := exists_isNaN_go _ 0 hw hnone
    rw [hnumbers stop hstop] at hnone'
    cases hnone'
  have hle (w : Float) (hw : w ∈ weights) : w ≤ Scalar.sum weights :=
    le_foldl_add_of_mem NonnegativeSums.zero_le_neg_zero h hw
  have htotal : 0 ≤ Scalar.sum weights :=
    zero_le_foldl_add NonnegativeSums.zero_le_neg_zero h
  constructor
  case mp =>
    intro hnumbers
    have hfinite : ∀ w ∈ weights, w.isFinite = true := by
      intro w hw
      by_contra hover
      -- an infinite weight makes the total infinite, and its share is none
      have hover' : w.isFinite = false := Bool.not_eq_true _ ▸ hover
      have hmore : (Scalar.sum weights).isFinite = false := by
        rw [← Bool.not_eq_true]
        exact fun hsum => hover (isFinite_of_le_of_le isFinite_zero hsum (h w hw) (hle w hw))
      exact hshare w hw hnumbers (isNaN_div (.inr ⟨_, _, unpack_eq_infinity (h w hw) hover',
        unpack_eq_infinity htotal hmore⟩))
    refine ⟨hfinite, ?_⟩
    by_contra hnone
    have hzero : ∀ w ∈ weights, value w = 0 := by
      intro w hw
      refine le_antisymm ?_ ((zero_le_value (hfinite w hw)).mp (h w hw))
      rw [← not_lt, ← value_pos (hfinite w hw)]
      exact fun hpos => hnone ⟨w, hw, hpos⟩
    obtain ⟨w, hw⟩ := List.exists_mem_of_ne_nil weights hne
    have hsum : Budgeted (0 + weights.length * 0) 0 (Scalar.sum weights) :=
      Budgeted.foldl_add (fun w hw => budgeted_zero (hfinite w hw) (hzero w hw) 0)
        (budgeted_zero isFinite_neg_zero value_neg_zero 0) (by simp) (by norm_num) (by norm_num)
    rw [Nat.mul_zero] at hsum
    obtain ⟨s, hs⟩ := exists_zero_of_value_eq (hfinite w hw) (hzero w hw)
    obtain ⟨t, ht⟩ := exists_zero_of_value_eq hsum.isFinite hsum.value_eq_zero
    exact hshare w hw hnumbers (isNaN_div (.inl ⟨s, t, hs, ht⟩))
  case mpr =>
    rintro ⟨hfinite, w, hw, hpos⟩ stop hstop
    have htotal' := ComparableScalar.lt_of_lt_of_le hpos (hle w hw)
    have hstops := zero_le_go (Scalar.sum weights) NonnegativeSums.zero_le_zero
      fun w hw => zero_le_div (h w hw) (hfinite w hw) htotal'
    exact NonnegativeSums.isNaN_of_zero_le stop (hstops stop hstop)

end Wheel
end PopulationSearch
