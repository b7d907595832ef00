import Mathlib.Algebra.BigOperators.Group.List.Basic
import Mathlib.Algebra.BigOperators.Ring.List
import Mathlib.Algebra.Order.BigOperators.Group.List
import Mathlib.Data.Rat.Floor
import Mathlib.Order.Interval.Set.Defs
import PopulationSearch.Proofs.Exact
import PopulationSearch.Proofs.Wheel

/-! The sectors of a wheel in exact arithmetic. Two ways of reading it differ on borders only. -/

namespace PopulationSearch.Wheel

section Borders

structure Reaches {K : Type} [Preorder K] (s : Set K) (lo hi : K) : Prop where
  inner : Set.Ioo lo hi ⊆ s
  outer : s ⊆ Set.Icc lo hi

variable {K : Type} [Field K]

def border (weights : List K) (i : Nat) : K := (weights.take i).sum / weights.sum

variable {weights : List K}

@[simp] theorem border_zero (weights : List K) : border weights 0 = 0 := by
  simp [border]

theorem border_length (h : weights.sum ≠ 0) : border weights weights.length = 1 := by
  rw [border, List.take_length, div_self h]

theorem border_succ_sub {i : Nat} {w : K} (hi : weights[i]? = some w) :
    border weights (i + 1) - border weights i = w / weights.sum := by
  rw [border, border, List.take_add_one, hi, ← sub_div, List.sum_append]
  simp

theorem border_mono [LinearOrder K] [IsStrictOrderedRing K] (hweights : ∀ w ∈ weights, 0 ≤ w)
    (htotal : 0 < weights.sum) : Monotone (border weights) := by
  apply monotone_nat_of_le_succ
  intro i
  rw [← sub_nonneg]
  cases hi : weights[i]? with
  | none =>
    have hle : weights.length ≤ i := List.getElem?_eq_none_iff.mp hi
    rw [border, border, List.take_of_length_le hle, List.take_of_length_le (by omega), sub_self]
  | some w =>
    rw [border_succ_sub hi]
    exact div_nonneg (hweights w (List.mem_of_getElem? hi)) htotal.le

end Borders

section Exact

variable {K : Type} [Field K] [LinearOrder K] [FloorSemiring K] {weights : List K} {r : K}

attribute [local instance] Scalar.exact

theorem reach_exact (i : Nat) : reach weights i = border weights (i + 1) := by
  rw [reach, Scalar.sum_exact, border, ← List.sum_eq_foldl]
  simp only [div_eq_mul_inv, List.sum_map_mul_right, List.map_id']

theorem getElem?_cumulative {i : Nat} (hi : i < weights.length) :
    (cumulative weights)[i]? = some (border weights (i + 1)) := by
  rw [getElem?_cumulative_eq hi, reach_exact]

theorem findIdx?_cumulative {passes : K → Bool} {i : Nat} (hi : i < weights.length) :
    (cumulative weights).findIdx? passes = some i ↔
      passes (border weights (i + 1)) = true ∧
        ∀ j < i, passes (border weights (j + 1)) = false := by
  have hlen := length_cumulative weights
  have hend (j : Nat) (hj : j < (cumulative weights).length) :
      (cumulative weights)[j] = border weights (j + 1) :=
    (List.getElem?_eq_some_iff.mp (getElem?_cumulative (hlen ▸ hj))).2
  rw [List.findIdx?_eq_some_iff_getElem]
  constructor
  · rintro ⟨hlt, hpass, hnot⟩
    rw [hend i hlt] at hpass
    refine ⟨hpass, fun j hj => ?_⟩
    have hfail := hnot j hj
    rwa [hend j (hj.trans hlt), Bool.not_eq_true] at hfail
  · rintro ⟨hpass, hnot⟩
    have hlt : i < (cumulative weights).length := hlen.symm ▸ hi
    refine ⟨hlt, ?_, fun j hj => ?_⟩
    · rwa [hend i hlt]
    · rw [hend j (hj.trans hlt), hnot j hj]
      exact Bool.false_ne_true

theorem findIdx?_eq_firstOrLast (htotal : 0 < weights.sum) {passes : K → Bool}
    (hone : passes 1 = true) :
    (cumulative weights).findIdx? passes = some (firstOrLast passes (cumulative weights)) := by
  have hpos := List.length_pos_of_sum_pos _ htotal
  have hlast : (1 : K) ∈ cumulative weights := by
    apply List.mem_of_getElem? (i := weights.length - 1)
    rw [getElem?_cumulative (by omega), Nat.sub_add_cancel hpos, border_length htotal.ne']
  rw [firstOrLast]
  cases hfound : (cumulative weights).findIdx? passes with
  | none =>
    have hfail := List.findIdx?_eq_none_iff.mp hfound 1 hlast
    rw [hone] at hfail
    cases hfail
  | some i => rfl

variable [IsStrictOrderedRing K]

theorem spin_eq_iff (hweights : ∀ w ∈ weights, 0 ≤ w) (htotal : 0 < weights.sum)
    (hr : r ∈ Set.Ico 0 1) {i : Nat} (hi : i < weights.length) :
    spin (cumulative weights) r = i ↔ r ∈ Set.Ico (border weights i) (border weights (i + 1)) := by
  have hmono := border_mono hweights htotal
  rw [spin, ← Option.some_inj, ← findIdx?_eq_firstOrLast htotal (decide_eq_true hr.2),
    findIdx?_cumulative hi, decide_eq_true_eq, Set.mem_Ico, and_comm]
  refine and_congr_left fun _ => ?_
  simp only [decide_eq_false_iff_not, not_lt]
  constructor
  · intro hpassed
    cases i with
    | zero =>
      rw [border_zero]
      exact hr.1
    | succ i => exact hpassed i (Nat.lt_succ_self i)
  · intro hle j hj
    exact (hmono hj).trans hle

theorem roulette_eq_iff (hweights : ∀ w ∈ weights, 0 ≤ w) (htotal : 0 < weights.sum)
    (hr : r ∈ Set.Ico 0 1) {i : Nat} (hi : i < weights.length) :
    roulette weights r = i ↔
      r ∈ Set.Ioc (border weights i) (border weights (i + 1)) ∨ i = 0 ∧ r = 0 := by
  have hmono := border_mono hweights htotal
  rw [roulette, ← Option.some_inj, ← findIdx?_eq_firstOrLast htotal (decide_eq_true hr.2.le),
    findIdx?_cumulative hi, decide_eq_true_eq, Set.mem_Ioc]
  simp only [decide_eq_false_iff_not, not_le]
  constructor
  · rintro ⟨hle, hpassed⟩
    cases i with
    | zero =>
      rcases hr.1.eq_or_lt with rfl | hpos
      · exact .inr ⟨rfl, rfl⟩
      · rw [border_zero]
        exact .inl ⟨hpos, hle⟩
    | succ i => exact .inl ⟨hpassed i (Nat.lt_succ_self i), hle⟩
  · rintro (⟨hlt, hle⟩ | ⟨rfl, rfl⟩)
    · exact ⟨hle, fun j hj => (hmono hj).trans_lt hlt⟩
    · rw [← border_zero weights]
      exact ⟨hmono (Nat.zero_le 1), fun j hj => absurd hj (Nat.not_lt_zero j)⟩

theorem mem_unit_of_mem_sector (hweights : ∀ w ∈ weights, 0 ≤ w) (htotal : 0 < weights.sum)
    {i : Nat} (hi : i < weights.length)
    (hr : r ∈ Set.Ioo (border weights i) (border weights (i + 1))) : r ∈ Set.Ico 0 1 := by
  have hmono := border_mono hweights htotal
  constructor
  · rw [← border_zero weights]
    exact (hmono (Nat.zero_le i)).trans hr.1.le
  · rw [← border_length htotal.ne']
    exact hr.2.trans_le (hmono hi)

theorem reaches_spin (hweights : ∀ w ∈ weights, 0 ≤ w) (htotal : 0 < weights.sum) {i : Nat}
    (hi : i < weights.length) : Reaches {r ∈ Set.Ico 0 1 | spin (cumulative weights) r = i}
      (border weights i) (border weights (i + 1)) := by
  constructor
  · intro r hr
    have hunit := mem_unit_of_mem_sector hweights htotal hi hr
    exact ⟨hunit, (spin_eq_iff hweights htotal hunit hi).mpr (Set.Ioo_subset_Ico_self hr)⟩
  · rintro r ⟨hunit, hchosen⟩
    exact Set.Ico_subset_Icc_self ((spin_eq_iff hweights htotal hunit hi).mp hchosen)

theorem reaches_roulette (hweights : ∀ w ∈ weights, 0 ≤ w) (htotal : 0 < weights.sum) {i : Nat}
    (hi : i < weights.length) : Reaches {r ∈ Set.Ico 0 1 | roulette weights r = i}
      (border weights i) (border weights (i + 1)) := by
  constructor
  · intro r hr
    have hunit := mem_unit_of_mem_sector hweights htotal hi hr
    exact ⟨hunit, (roulette_eq_iff hweights htotal hunit hi).mpr
      (.inl (Set.Ioo_subset_Ioc_self hr))⟩
  · rintro r ⟨hunit, hchosen⟩
    rcases (roulette_eq_iff hweights htotal hunit hi).mp hchosen with hsector | ⟨rfl, rfl⟩
    · exact Set.Ioc_subset_Icc_self hsector
    · rw [← border_zero weights]
      exact Set.left_mem_Icc.mpr (border_mono hweights htotal (Nat.zero_le 1))

theorem eq_zero_of_empty (hweights : ∀ w ∈ weights, 0 ≤ w) (htotal : 0 < weights.sum)
    (hr : r ∈ Set.Ico 0 1) {i : Nat} (hempty : weights[i]? = some 0) :
    spin (cumulative weights) r ≠ i ∧ (roulette weights r = i → i = 0 ∧ r = 0) := by
  have hi : i < weights.length := (List.getElem?_eq_some_iff.mp hempty).1
  have hnarrow : border weights (i + 1) = border weights i := by
    rw [← sub_eq_zero, border_succ_sub hempty, zero_div]
  rw [Ne, spin_eq_iff hweights htotal hr hi, roulette_eq_iff hweights htotal hr hi, hnarrow,
    Set.Ico_self, Set.Ioc_self]
  exact ⟨Set.notMem_empty r, fun h => h.resolve_left (Set.notMem_empty r)⟩

theorem spin_eq_roulette (hweights : ∀ w ∈ weights, 0 ≤ w) (htotal : 0 < weights.sum)
    (hr : r ∈ Set.Ico 0 1) (hborders : ∀ i < weights.length, r ≠ border weights (i + 1)) :
    spin (cumulative weights) r = roulette weights r := by
  have hlt : spin (cumulative weights) r < weights.length := by
    rw [← length_cumulative weights]
    exact spin_lt r (by rw [length_cumulative]; exact List.length_pos_of_sum_pos _ htotal)
  obtain ⟨hle, hstop⟩ := (spin_eq_iff hweights htotal hr hlt).mp rfl
  apply Eq.symm
  rw [roulette_eq_iff hweights htotal hr hlt]
  generalize spin (cumulative weights) r = i at *
  cases i with
  | zero =>
    rcases hr.1.eq_or_lt with rfl | hpos
    · exact .inr ⟨rfl, rfl⟩
    · rw [← border_zero weights] at hpos
      exact .inl ⟨hpos, hstop.le⟩
  | succ i =>
    have hne := hborders i (Nat.lt_of_succ_lt hlt)
    exact .inl ⟨lt_of_le_of_ne hle hne.symm, hstop.le⟩

/-- Both wheels give each sector an interval of draws as wide as its share and agree on every draw
that is no border. -/
theorem sectors_proportional (hweights : ∀ w ∈ weights, 0 ≤ w) (htotal : 0 < weights.sum) :
    (∀ i w, weights[i]? = some w →
      border weights (i + 1) - border weights i = w / weights.sum ∧
      Reaches {r ∈ Set.Ico 0 1 | spin (cumulative weights) r = i}
        (border weights i) (border weights (i + 1)) ∧
      Reaches {r ∈ Set.Ico 0 1 | roulette weights r = i}
        (border weights i) (border weights (i + 1))) ∧
    ∀ r ∈ Set.Ico (0 : K) 1,
      (∀ i < weights.length,
        (spin (cumulative weights) r = i ↔
          r ∈ Set.Ico (border weights i) (border weights (i + 1))) ∧
        (roulette weights r = i ↔
          r ∈ Set.Ioc (border weights i) (border weights (i + 1)) ∨ i = 0 ∧ r = 0)) ∧
      (cumulative weights).findIdx? (fun stop => r < stop) =
        some (spin (cumulative weights) r) ∧
      (cumulative weights).findIdx? (fun stop => r ≤ stop) = some (roulette weights r) ∧
      (∀ i, weights[i]? = some 0 →
        spin (cumulative weights) r ≠ i ∧ (roulette weights r = i → i = 0 ∧ r = 0)) ∧
      ((∀ i < weights.length, r ≠ border weights (i + 1)) →
        spin (cumulative weights) r = roulette weights r) := by
  constructor
  · intro i w hw
    have hi : i < weights.length := (List.getElem?_eq_some_iff.mp hw).1
    exact ⟨border_succ_sub hw, reaches_spin hweights htotal hi,
      reaches_roulette hweights htotal hi⟩
  · intro r hr
    refine ⟨fun i hi => ⟨?_, ?_⟩, ?_, ?_, ?_, ?_⟩
    · exact spin_eq_iff hweights htotal hr hi
    · exact roulette_eq_iff hweights htotal hr hi
    · exact findIdx?_eq_firstOrLast htotal (decide_eq_true hr.2)
    · exact findIdx?_eq_firstOrLast htotal (decide_eq_true hr.2.le)
    · exact fun i => eq_zero_of_empty hweights htotal hr
    · exact spin_eq_roulette hweights htotal hr

theorem sectors_proportional_quarter :
    spin (cumulative [(1 : ℚ), 0, 2, 1]) (1 / 4) = 2 ∧ roulette [(1 : ℚ), 0, 2, 1] (1 / 4) = 0 ∧
      Reaches {r ∈ Set.Ico (0 : ℚ) 1 | roulette [1, 0, 2, 1] r = 2} (1 / 4) (3 / 4) := by
  have hweights : ∀ w ∈ [(1 : ℚ), 0, 2, 1], 0 ≤ w := by decide +kernel
  have htotal : 0 < [(1 : ℚ), 0, 2, 1].sum := by decide +kernel
  have hborders : border [(1 : ℚ), 0, 2, 1] 0 = 0 ∧ border [(1 : ℚ), 0, 2, 1] 1 = 1 / 4 ∧
      border [(1 : ℚ), 0, 2, 1] 2 = 1 / 4 ∧ border [(1 : ℚ), 0, 2, 1] 3 = 3 / 4 := by
    decide +kernel
  obtain ⟨hsectors, hdraws⟩ := sectors_proportional hweights htotal
  obtain ⟨hchosen, -⟩ := hdraws (1 / 4) (by decide +kernel)
  have hthird := (hsectors 2 2 rfl).2.2
  rw [hborders.2.2.1, hborders.2.2.2] at hthird
  refine ⟨(hchosen 2 (by decide)).1.mpr ?_, (hchosen 0 (by decide)).2.mpr (.inl ?_), hthird⟩
  · rw [hborders.2.2.1, hborders.2.2.2]
    decide +kernel
  · rw [hborders.1, hborders.2.1]
    decide +kernel

end Exact
end PopulationSearch.Wheel
