import PopulationSearch.Proofs.Chance
import PopulationSearch.Proofs.Order

/-! Laws of doubles and of the seeded generator that feasibility and lengths rest on. None of them
says how a result is rounded or covers results that overflow. -/

namespace PopulationSearch

class ComparableScalar (α : Type) [Scalar α] : Prop extends OrderedScalar α where
  isNaN_of_lt : ∀ a b : α, a < b → Scalar.isNaN a = false ∧ Scalar.isNaN b = false
  le_iff_not_lt : ∀ a b : α,
    a ≤ b ↔ Scalar.isNaN a = false ∧ Scalar.isNaN b = false ∧ ¬ b < a

/-- Sums and differences of finite numbers are numbers, and a share of a finite number is finite. -/
class FiniteArithmetic (α : Type) [Scalar α] : Prop extends ComparableScalar α where
  isNaN_of_isFinite : ∀ a : α, Scalar.isFinite a = true → Scalar.isNaN a = false
  isFinite_of_le_of_le : ∀ a b c : α, Scalar.isFinite a = true → Scalar.isFinite c = true →
    a ≤ b → b ≤ c → Scalar.isFinite b = true
  isNaN_add : ∀ a b : α, Scalar.isFinite a = true → Scalar.isFinite b = true →
    Scalar.isNaN (a + b) = false
  isFinite_neg : ∀ a : α, Scalar.isFinite a = true → Scalar.isFinite (-a) = true
  neg_le_zero : ∀ a : α, 0 ≤ a → -a ≤ 0
  zero_le_sub : ∀ a b : α, Scalar.isFinite a = true → Scalar.isFinite b = true → a ≤ b → 0 ≤ b - a
  one_sub_mem : ∀ t : α, 0 ≤ t → t ≤ 1 → 0 ≤ 1 - t ∧ 1 - t ≤ 1
  isFinite_share : ∀ t a : α, 0 ≤ t → t ≤ 1 → Scalar.isFinite a = true →
    Scalar.isFinite (t * a) = true
  zero_le_share : ∀ t a : α, 0 ≤ t → t ≤ 1 → Scalar.isFinite a = true → 0 ≤ a → 0 ≤ t * a

/-- Nothing can be added to a number that makes it smaller, unless it is negative. -/
class GrowingSums (α : Type) [Scalar α] : Prop extends ComparableScalar α where
  le_add_right : ∀ a b : α, 0 ≤ a → 0 ≤ b → a ≤ a + b
  le_add_left : ∀ a b : α, 0 ≤ a → 0 ≤ b → a ≤ b + a
  zero_le_count_div : ∀ (n : Nat) (a : α), n < UInt64.size → 0 < a → 0 ≤ Scalar.count n / a
  zero_le_one_div : ∀ a : α, 0 < a → 0 ≤ 1 / a

namespace ComparableScalar

variable {α : Type} [Scalar α] [ComparableScalar α] {a b c : α}

theorem le_refl (h : Scalar.isNaN a = false) : a ≤ a :=
  (le_iff_not_lt a a).mpr ⟨h, h, OrderedScalar.lt_irrefl a⟩

theorem le_of_not_lt (ha : Scalar.isNaN a = false) (hb : Scalar.isNaN b = false) (h : ¬ b < a) :
    a ≤ b := (le_iff_not_lt a b).mpr ⟨ha, hb, h⟩

theorem le_of_lt (h : a < b) : a ≤ b := by
  obtain ⟨ha, hb⟩ := isNaN_of_lt a b h
  exact le_of_not_lt ha hb fun hba =>
    OrderedScalar.lt_irrefl a (OrderedScalar.lt_trans a b a h hba)

theorem lt_of_lt_of_le (hab : a < b) (hbc : b ≤ c) : a < c := by
  obtain ⟨hb, hc, hcb⟩ := (le_iff_not_lt b c).mp hbc
  rcases OrderedScalar.lt_or_lt a c b hc hab with h | h
  · exact h
  · exact absurd h hcb

theorem le_trans (hab : a ≤ b) (hbc : b ≤ c) : a ≤ c := by
  obtain ⟨ha, hb, hba⟩ := (le_iff_not_lt a b).mp hab
  obtain ⟨-, hc, hcb⟩ := (le_iff_not_lt b c).mp hbc
  refine le_of_not_lt ha hc fun hca => ?_
  rcases OrderedScalar.lt_or_lt c b a hb hca with h | h
  · exact hcb h
  · exact hba h

theorem isNaN_left (h : a ≤ b) : Scalar.isNaN a = false := ((le_iff_not_lt a b).mp h).1

theorem isNaN_right (h : a ≤ b) : Scalar.isNaN b = false := ((le_iff_not_lt a b).mp h).2.1

theorem le_larger (hb : Scalar.isNaN b = false) : b ≤ Scalar.larger a b := by
  unfold Scalar.larger
  split
  case isTrue h =>
    rw [hb, Bool.or_false, decide_eq_true_eq] at h
    exact le_of_lt h
  case isFalse => exact le_refl hb

end ComparableScalar

section Sums

variable {α : Type} [Scalar α] [NonnegativeSums α] [GrowingSums α] {l : List α} {first a : α}

theorem le_foldl_add (hfirst : 0 ≤ first) (hl : ∀ b ∈ l, 0 ≤ b) :
    first ≤ l.foldl (· + ·) first := by
  induction l generalizing first with
  | nil => exact ComparableScalar.le_refl (NonnegativeSums.isNaN_of_zero_le first hfirst)
  | cons b l ih =>
    obtain ⟨hb, hl⟩ := List.forall_mem_cons.mp hl
    exact ComparableScalar.le_trans (GrowingSums.le_add_right first b hfirst hb)
      (ih (NonnegativeSums.zero_le_add first b hfirst hb) hl)

theorem le_foldl_add_of_mem (hfirst : 0 ≤ first) (hl : ∀ b ∈ l, 0 ≤ b) (ha : a ∈ l) :
    a ≤ l.foldl (· + ·) first := by
  induction l generalizing first with
  | nil => cases ha
  | cons b l ih =>
    obtain ⟨hb, hrest⟩ := List.forall_mem_cons.mp hl
    have hnext := NonnegativeSums.zero_le_add first b hfirst hb
    rcases List.mem_cons.mp ha with rfl | ha
    · exact ComparableScalar.le_trans (GrowingSums.le_add_left a first hb hfirst)
        (le_foldl_add hnext hrest)
    · exact ih hnext hrest ha

end Sums

namespace Interval

variable {α : Type} [Scalar α] {lo hi x : α}

theorem contains_iff : contains lo hi x = true ↔ lo ≤ x ∧ x ≤ hi := by
  simp [contains]

theorem contains_clip [ComparableScalar α] (h : lo ≤ hi) (hx : Scalar.isNaN x = false) :
    contains lo hi (Scalar.clip lo hi x) = true := by
  have hlo := ComparableScalar.isNaN_left h
  have hhi := ComparableScalar.isNaN_right h
  rw [contains_iff]
  unfold Scalar.clip
  split
  case isTrue => exact ⟨ComparableScalar.le_refl hlo, h⟩
  case isFalse hbelow =>
    split
    case isTrue => exact ⟨h, ComparableScalar.le_refl hhi⟩
    case isFalse habove =>
      exact ⟨ComparableScalar.le_of_not_lt hlo hx hbelow,
        ComparableScalar.le_of_not_lt hx hhi habove⟩

theorem clamp_yields [ComparableScalar α] (h : lo ≤ hi) (hx : Scalar.isNaN x = false) :
    Yields (clamp lo hi x) fun y => contains lo hi y = true := by
  unfold clamp
  rw [if_pos h]
  exact .ok (contains_clip h hx)

structure Proper (lo hi : α) : Prop where
  isFinite_lower : Scalar.isFinite lo = true
  isFinite_upper : Scalar.isFinite hi = true
  le : lo ≤ hi

theorem proper_of_isSound [FiniteArithmetic α] (h : isSound lo hi = true) :
    Proper lo hi ∧ Scalar.isFinite (hi - lo) = true := by
  simp only [isSound, Bool.and_eq_true, Bool.not_eq_true', decide_eq_false_iff_not] at h
  obtain ⟨⟨⟨hlo, hhi⟩, horder⟩, hwidth⟩ := h
  exact ⟨⟨hlo, hhi, ComparableScalar.le_of_not_lt (FiniteArithmetic.isNaN_of_isFinite lo hlo)
    (FiniteArithmetic.isNaN_of_isFinite hi hhi) horder⟩, hwidth⟩

theorem proper_neg [FiniteArithmetic α] (hx : Scalar.isFinite x = true) (h : 0 ≤ x) :
    Proper (-x) x where
  isFinite_lower := FiniteArithmetic.isFinite_neg x hx
  isFinite_upper := hx
  le := ComparableScalar.le_trans (FiniteArithmetic.neg_le_zero x h) h

theorem Proper.isFinite_of_contains [FiniteArithmetic α] (h : Proper lo hi)
    (hx : contains lo hi x = true) : Scalar.isFinite x = true := by
  obtain ⟨hlo, hhi⟩ := contains_iff.mp hx
  exact FiniteArithmetic.isFinite_of_le_of_le lo x hi h.isFinite_lower h.isFinite_upper hlo hhi

end Interval

class UniformDraws (γ : Type) {α : outParam Type} [Source γ α] [Scalar α] : Prop where
  unit_mem : ∀ g : γ, Interval.contains (0 : α) 1 (Source.unit g).1 = true
  between_mem : ∀ (lo hi : α) (g : γ), Interval.Proper lo hi → Scalar.isFinite (hi - lo) = true →
    Interval.contains lo hi (Source.between lo hi g).1 = true

structure DistinctBelow (n : Nat) (l : List Nat) : Prop where
  nodup : l.Nodup
  lt : ∀ i ∈ l, i < n

class DistinctSamples (γ : Type) {α : outParam Type} [Source γ α] : Prop where
  length_sample : ∀ (n amount : Nat) (g : γ), amount ≤ n →
    (Source.sample n amount g).1.length = amount
  distinct_sample : ∀ (n amount : Nat) (g : γ), amount ≤ n →
    DistinctBelow n (Source.sample n amount g).1

namespace Draw

variable {γ α : Type} [Source γ α]

variable [Scalar α] [FiniteArithmetic α] [UniformDraws γ] {lo hi : α}

omit [FiniteArithmetic α] in
theorem between_yields (h : Interval.Proper lo hi) (hlt : lo < hi)
    (hwidth : Scalar.isFinite (hi - lo) = true) :
    Yields (between lo hi : Draw γ α) fun x => Interval.contains lo hi x = true := by
  intro g
  have hdraw : (between lo hi : Draw γ α) g = .ok (Source.between lo hi g) :=
    if_pos ⟨hlt, hwidth⟩
  exact ⟨_, hdraw, UniformDraws.between_mem lo hi g h hwidth⟩

omit [FiniteArithmetic α] in
theorem unit_mem_yields : Yields (unit : Draw γ α) fun t => 0 ≤ t ∧ t ≤ 1 :=
  fun g => .ok (Interval.contains_iff.mp (UniformDraws.unit_mem g))

theorem uniform_yields (h : Interval.Proper lo hi) :
    Yields (uniform lo hi : Draw γ α) fun x => Interval.contains lo hi x = true := by
  have hlo := ComparableScalar.isNaN_left h.le
  have hhi := ComparableScalar.isNaN_right h.le
  unfold uniform
  split
  case isTrue => exact .pure (Interval.contains_iff.mpr ⟨ComparableScalar.le_refl hlo, h.le⟩)
  case isFalse hpoint =>
  have hlt : lo < hi := by
    by_contra hnot
    exact hpoint (ComparableScalar.le_of_not_lt hhi hlo hnot)
  split
  case isTrue hwidth => exact between_yields h hlt hwidth
  case isFalse =>
    refine unit_mem_yields.bind fun t ht => .lift ?_
    obtain ⟨ht0, ht1⟩ := ht
    obtain ⟨hs0, hs1⟩ := FiniteArithmetic.one_sub_mem t ht0 ht1
    have hleft := FiniteArithmetic.isFinite_share (1 - t) lo hs0 hs1 h.isFinite_lower
    have hright := FiniteArithmetic.isFinite_share t hi ht0 ht1 h.isFinite_upper
    exact Interval.clamp_yields h.le (FiniteArithmetic.isNaN_add _ _ hleft hright)

end Draw
end PopulationSearch
