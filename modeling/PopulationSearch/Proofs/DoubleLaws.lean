import PopulationSearch.Proofs.Arithmetic
import PopulationSearch.Proofs.Rounding

/-! Doubles and the numbers of the seeded generator obey the laws of arithmetic. -/

namespace PopulationSearch

open Float.Model (UnpackedFloat)
open Binary64

namespace Binary64

variable {a b : Float} {x : ℚ}

theorem value_zero : value 0 = 0 := by
  rw [value, unpack_zero]

theorem isFinite_zero : (0 : Float).isFinite = true := by decide +kernel

theorem isFinite_one : (1 : Float).isFinite = true := by decide +kernel

theorem Rounds.zero_le (h : Rounds x a) (hx : 0 ≤ x) : 0 ≤ a :=
  h.le_of_le 0 isFinite_zero (by rwa [value_zero])

theorem Rounds.le_zero (h : Rounds x a) (hx : x ≤ 0) : a ≤ 0 :=
  h.ge_of_ge 0 isFinite_zero (by rwa [value_zero])

theorem Rounds.le_one (h : Rounds x a) (hx : x ≤ 1) : a ≤ 1 :=
  h.ge_of_ge 1 isFinite_one (by rwa [value_one])

theorem float_isNaN_of_le (h : a ≤ b) : a.isNaN = false ∧ b.isNaN = false := by
  obtain ⟨ha, hb, -⟩ := le_iff_rank.mp (float_le_iff.mp h)
  exact ⟨ha, hb⟩

theorem Rounds.isNaN_eq_false (h : Rounds x a) : a.isNaN = false := by
  rcases le_total 0 x with hx | hx
  · exact (float_isNaN_of_le (h.zero_le hx)).2
  · exact (float_isNaN_of_le (h.le_zero hx)).1

theorem zero_le_value (ha : a.isFinite = true) : 0 ≤ a ↔ 0 ≤ value a := by
  rw [le_iff_value isFinite_zero ha, value_zero]

theorem le_one_value (ha : a.isFinite = true) : a ≤ 1 ↔ value a ≤ 1 := by
  rw [le_iff_value ha isFinite_one, value_one]

theorem isFinite_of_mem_unit (h0 : 0 ≤ a) (h1 : a ≤ 1) : a.isFinite = true :=
  isFinite_of_le_of_le isFinite_zero isFinite_one h0 h1

theorem Nonnegative.isFinite_or_eq {u : UnpackedFloat} (h : Nonnegative u) :
    u.isFinite = true ∨ u = .infinity .positive := by
  cases h with
  | zero s => exact .inl rfl
  | finite m e hm => exact .inl rfl
  | infinity => exact .inr rfl

end Binary64

instance : ComparableScalar Float where
  isNaN_of_lt := by
    intro a b h
    obtain ⟨ha, hb, -⟩ := lt_iff_rank.mp (float_lt_iff.mp h)
    exact ⟨ha, hb⟩
  le_iff_not_lt := by
    intro a b
    rw [float_le_iff, float_lt_iff, le_iff_rank, lt_iff_rank, ← not_lt]
    change _ ↔ a.toModel.unpack.isNaN = false ∧ b.toModel.unpack.isNaN = false ∧ _
    tauto

instance : FiniteArithmetic Float where
  isNaN_of_isFinite := fun _ => Binary64.isNaN_of_isFinite
  isFinite_of_le_of_le := fun _ _ _ => Binary64.isFinite_of_le_of_le
  isNaN_add := fun a b ha hb => (rounds_add ha hb).isNaN_eq_false
  isFinite_neg := fun a ha => (Binary64.isFinite_neg a).trans ha
  neg_le_zero := by
    intro a ha
    have hneg : -0 ≤ a := by
      have hunpack : (-0 : Float).toModel.unpack = .zero .negative := by
        rw [unpack_neg, unpack_zero]
        rfl
      rw [float_le_iff, hunpack, zero_le_iff]
      exact float_zero_le_iff.mp ha
    rwa [← float_neg_neg 0, float_neg_le_neg_iff]
  zero_le_sub := by
    intro a b ha hb hab
    have hvalue := (le_iff_value ha hb).mp hab
    exact (rounds_sub hb ha).zero_le (by linarith)
  one_sub_mem := by
    intro t h0 h1
    have ht := isFinite_of_mem_unit h0 h1
    have hrounds := rounds_sub isFinite_one ht
    rw [value_one] at hrounds
    rw [zero_le_value ht] at h0
    rw [le_one_value ht] at h1
    exact ⟨hrounds.zero_le (by linarith), hrounds.le_one (by linarith)⟩
  isFinite_share := by
    intro t a h0 h1 ha
    have ht := isFinite_of_mem_unit h0 h1
    have hrounds := rounds_mul ht ha
    rw [zero_le_value ht] at h0
    rw [le_one_value ht] at h1
    rcases le_total 0 (value a) with hpos | hneg
    · have hle := hrounds.ge_of_ge a ha (mul_le_of_le_one_left hpos h1)
      exact Binary64.isFinite_of_le_of_le Binary64.isFinite_zero ha
        (hrounds.zero_le (mul_nonneg h0 hpos)) hle
    · have hle := hrounds.le_of_le a ha (by nlinarith only [h1, hneg])
      exact Binary64.isFinite_of_le_of_le ha Binary64.isFinite_zero hle
        (hrounds.le_zero (mul_nonpos_of_nonneg_of_nonpos h0 hneg))
  zero_le_share := by
    intro t a h0 h1 ha hpos
    have ht := isFinite_of_mem_unit h0 h1
    rw [zero_le_value ht] at h0
    rw [zero_le_value ha] at hpos
    exact (rounds_mul ht ha).zero_le (mul_nonneg h0 hpos)

namespace Binary64

variable {a b : Float}

theorem Nonnegative.add_infinity {u : UnpackedFloat} (h : Nonnegative u) :
    UnpackedFloat.add .binary64 u (.infinity .positive) = .infinity .positive := by
  cases h <;> rfl

theorem Nonnegative.infinity_add {u : UnpackedFloat} (h : Nonnegative u) :
    UnpackedFloat.add .binary64 (.infinity .positive) u = .infinity .positive := by
  cases h <;> rfl

theorem le_add_of_nonneg (ha : 0 ≤ a) (hb : 0 ≤ b) : a ≤ a + b ∧ b ≤ a + b := by
  have hover (h : UnpackedFloat.add .binary64 a.toModel.unpack b.toModel.unpack =
      .infinity .positive) : a ≤ a + b ∧ b ≤ a + b := by
    have hsum : (a + b).toModel.unpack = .infinity .positive := by
      change UnpackedFloat.unpack .binary64 (UnpackedFloat.pack .binary64
        (UnpackedFloat.add .binary64 a.toModel.unpack b.toModel.unpack)) = _
      rw [h]
      simp [UnpackedFloat.pack, UnpackedFloat.packedInfinity, UnpackedFloat.unpack]
    rw [float_le_iff, float_le_iff, hsum]
    exact ⟨le_infinity (float_zero_le_iff.mp ha).isNaN_eq,
      le_infinity (float_zero_le_iff.mp hb).isNaN_eq⟩
  rcases (float_zero_le_iff.mp ha).isFinite_or_eq with hfinite | hinfinite
  · rcases (float_zero_le_iff.mp hb).isFinite_or_eq with hfinite' | hinfinite'
    · have hrounds := rounds_add hfinite hfinite'
      rw [zero_le_value hfinite] at ha
      rw [zero_le_value hfinite'] at hb
      exact ⟨hrounds.le_of_le a hfinite (by linarith), hrounds.le_of_le b hfinite' (by linarith)⟩
    · apply hover
      rw [hinfinite', (float_zero_le_iff.mp ha).add_infinity]
  · apply hover
    rw [hinfinite, (float_zero_le_iff.mp hb).infinity_add]

theorem nonnegative_div {u v : UnpackedFloat} (hu : Nonnegative u) (hfinite : u.isFinite = true)
    (hv : (UnpackedFloat.zero .positive).lt v = true) :
    Nonnegative (UnpackedFloat.div .binary64 u v) := by
  have hzero (s : UnpackedFloat.Sign) (m : ℕ) (e : ℤ) (accuracy : UnpackedFloat.Accuracy)
      (hs : s = .positive) :
      Nonnegative (UnpackedFloat.roundWithAccuracy .binary64 s m e accuracy) := by
    subst hs
    rw [UnpackedFloat.roundWithAccuracy]
    dsimp only
    split
    · exact .zero _
    · exact .finite ..
  rcases v with (_ | _) | _ | _ | ⟨_ | _, n, f, hn⟩
  · cases hv
  · cases hu with
    | zero s => exact .zero _
    | finite m e hm => exact .zero _
    | infinity => cases hfinite
  · cases hv
  · cases hv
  · cases hv
  · cases hu with
    | zero s => exact .zero _
    | finite m e hm => exact hzero _ _ _ _ rfl
    | infinity => cases hfinite

theorem zero_le_div (ha : 0 ≤ a) (hfinite : a.isFinite = true) (hb : 0 < b) : 0 ≤ a / b := by
  have hquotient := nonnegative_div (float_zero_le_iff.mp ha) hfinite (float_lt_iff.mp hb)
  exact float_zero_le_iff.mpr hquotient.unpack_pack

theorem isFinite_ofNat {n : ℕ} (hn : n < UInt64.size) : (Float.ofNat n).isFinite = true := by
  obtain ⟨b, hb, hvalue⟩ := exists_value_eq (m := 1) (e := 64) (by norm_num) (by norm_num)
    (by norm_num)
  have hrounds := rounds_ofNat n
  have hle : (n : ℚ) ≤ value b := by
    have hcast : (n : ℚ) ≤ ((2 ^ 64 : ℕ) : ℚ) := Nat.cast_le.mpr hn.le
    rw [hvalue]
    exact_mod_cast hcast
  exact isFinite_of_le_of_le isFinite_zero hb (hrounds.zero_le (Nat.cast_nonneg n))
    (hrounds.ge_of_ge b hb hle)

end Binary64

instance : GrowingSums Float where
  le_add_right := fun _ _ ha hb => (le_add_of_nonneg ha hb).1
  le_add_left := fun _ _ ha hb => (le_add_of_nonneg hb ha).2
  zero_le_count_div := fun n _ hn ha =>
    zero_le_div ((rounds_ofNat n).zero_le (Nat.cast_nonneg n)) (isFinite_ofNat hn) ha
  zero_le_one_div := fun _ ha => zero_le_div (by decide +kernel) isFinite_one ha

end PopulationSearch
