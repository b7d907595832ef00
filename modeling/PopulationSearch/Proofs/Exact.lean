import Mathlib.Algebra.BigOperators.Group.List.Basic
import Mathlib.Algebra.Order.Field.Basic
import Mathlib.Algebra.Order.Floor.Semiring
import PopulationSearch.Proofs.Arithmetic

/-! The numbers of an ordered field are scalars that obey every law of order and of sums. -/

namespace PopulationSearch

section Powers

variable (K : Type) [Field K] [LinearOrder K]

class DecreasingPowers [Power K] : Prop where
  power_lt : ∀ x y e : K, e < 0 → 0 < x → x < y → Power.power y e < Power.power x e

class MultiplicativePowers [Power K] : Prop where
  power_pos : ∀ x e : K, 0 < x → 0 < Power.power x e
  power_mul : ∀ x y e : K, 0 < x → 0 < y →
    Power.power (x * y) e = Power.power x e * Power.power y e

@[reducible] def unitPowers : Power K := ⟨fun x y => if y < 0 then 1 / x else x⟩

variable [IsStrictOrderedRing K]

theorem decreasingPowers_unit : letI := unitPowers K; DecreasingPowers K :=
  letI := unitPowers K
  { power_lt := fun x y e he hx hxy => by
      show (if e < 0 then 1 / y else y) < if e < 0 then 1 / x else x
      rw [if_pos he, if_pos he]
      exact one_div_lt_one_div_of_lt hx hxy }

theorem multiplicativePowers_unit : letI := unitPowers K; MultiplicativePowers K :=
  letI := unitPowers K
  { power_pos := fun x e hx => by
      show 0 < if e < 0 then 1 / x else x
      split
      · exact one_div_pos.mpr hx
      · exact hx
    power_mul := fun x y e _ _ => by
      show (if e < 0 then 1 / (x * y) else x * y) =
        (if e < 0 then 1 / x else x) * if e < 0 then 1 / y else y
      split
      · exact (one_div_mul_one_div x y).symm
      · rfl }

end Powers

@[reducible] def Scalar.exact (K : Type) [Field K] [LinearOrder K] [FloorSemiring K] :
    Scalar K where
  decidableLT := inferInstance
  decidableLE := inferInstance
  isFinite _ := true
  isNaN _ := false
  count n := n
  nearestNat x := ⌊x + 1 / 2⌋₊

attribute [local instance] Scalar.exact

theorem Scalar.sum_exact {K : Type} [Field K] [LinearOrder K] [FloorSemiring K] (l : List K) :
    Scalar.sum l = l.sum := by
  rw [Scalar.sum, neg_zero, List.sum_eq_foldl]

variable (K : Type) [Field K] [LinearOrder K] [IsStrictOrderedRing K] [FloorSemiring K]

theorem growingSums_exact : GrowingSums K where
  lt_irrefl := lt_irrefl
  lt_trans := fun _ _ _ => lt_trans
  lt_or_lt := fun a b c _ hac => (lt_or_ge a b).imp_right fun hba => hba.trans_lt hac
  isNaN_of_lt := fun _ _ _ => ⟨rfl, rfl⟩
  le_iff_not_lt := fun a b => by simp [Scalar.isNaN]
  le_add_right := fun _ _ _ hb => le_add_of_nonneg_right hb
  le_add_left := fun _ _ _ hb => le_add_of_nonneg_left hb
  zero_le_count_div := fun n _ _ ha => div_nonneg n.cast_nonneg ha.le
  zero_le_one_div := fun _ ha => one_div_nonneg.mpr ha.le

theorem nonnegativeSums_exact : NonnegativeSums K where
  zero_le_zero := le_rfl
  zero_le_neg_zero := neg_zero.ge
  zero_le_of_lt := fun _ ha => ha.le
  zero_le_add := fun _ _ => add_nonneg
  isNaN_of_zero_le := fun _ _ => rfl

end PopulationSearch
