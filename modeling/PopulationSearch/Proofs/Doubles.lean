import Mathlib
import PopulationSearch.Proofs.Order

/-! Doubles obey the laws of order and of nonnegative sums: what they unpack to shows it. -/

namespace PopulationSearch

open Float.Model (UnpackedFloat Format)
open Float.Model.UnpackedFloat (Sign unpack pack packComponents packedInfinity)

namespace Binary64

/-- Where a double stands on the number line: its side and kind, then exponent and mantissa. -/
def rank : UnpackedFloat → ℤ ×ₗ ℤ ×ₗ ℤ
  | .infinity .negative => toLex (-2, toLex (0, 0))
  | .finite .negative m e _ => toLex (-1, toLex (-e, -m))
  | .zero _ | .notANumber => toLex (0, toLex (0, 0))
  | .finite .positive m e _ => toLex (1, toLex (e, m))
  | .infinity .positive => toLex (2, toLex (0, 0))

theorem then_eq_lt_iff {e f : Int} {m n : Nat} :
    (compare e f).then (compare m n) = .lt ↔ e < f ∨ e = f ∧ m < n := by
  rw [Ordering.then_eq_lt, compare_lt_iff_lt, compare_eq_iff_eq, compare_lt_iff_lt]

theorem then_eq_gt_iff {e f : Int} {m n : Nat} :
    (compare e f).then (compare m n) = .gt ↔ f < e ∨ e = f ∧ n < m := by
  rw [Ordering.then_eq_gt, compare_gt_iff_gt, compare_eq_iff_eq, compare_gt_iff_gt]

theorem lt_iff_rank {u v : UnpackedFloat} :
    u.lt v = true ↔ u.isNaN = false ∧ v.isNaN = false ∧ rank u < rank v := by
  have hsigns : compare Sign.negative .positive = .lt := rfl
  rw [UnpackedFloat.lt, beq_iff_eq]
  rcases u with (_ | _) | _ | s | ⟨(_ | _), m, e, _⟩ <;>
    rcases v with (_ | _) | _ | t | ⟨(_ | _), n, f, _⟩ <;>
      simp [UnpackedFloat.compare, rank, UnpackedFloat.isNaN, Prod.Lex.lt_iff, then_eq_lt_iff,
        then_eq_gt_iff, hsigns]

theorem le_of_lt {u v : UnpackedFloat} (h : u.lt v = true) : u.le v = true := by
  rw [UnpackedFloat.lt, beq_iff_eq] at h
  rw [UnpackedFloat.le, h]
  rfl

inductive Nonnegative : UnpackedFloat → Prop
  | zero (s : Sign) : Nonnegative (.zero s)
  | finite (m : Nat) (e : Int) (hm : 0 < m) : Nonnegative (.finite .positive m e hm)
  | infinity : Nonnegative (.infinity .positive)

theorem Nonnegative.isNaN_eq {u : UnpackedFloat} (h : Nonnegative u) : u.isNaN = false := by
  cases h <;> rfl

theorem zero_le_iff {s : Sign} {u : UnpackedFloat} :
    (UnpackedFloat.zero s).le u = true ↔ Nonnegative u := by
  constructor
  · intro h
    rcases u with (_ | _) | _ | t | ⟨(_ | _), m, e, hm⟩
    · cases h
    · exact .infinity
    · cases h
    · exact .zero t
    · cases h
    · exact .finite m e hm
  · intro h
    cases h <;> rfl

def withSign (s : Sign) : UnpackedFloat → UnpackedFloat
  | .infinity _ => .infinity s
  | .zero _ => .zero s
  | .finite _ m e hm => .finite s m e hm
  | .notANumber => .notANumber

theorem exists_withSign_eq_neg (u : UnpackedFloat) : ∃ s, u.neg = withSign s u := by
  cases u with
  | notANumber => exact ⟨.positive, rfl⟩
  | infinity s => exact ⟨-s, rfl⟩
  | zero s => exact ⟨-s, rfl⟩
  | finite s m e hm => exact ⟨-s, rfl⟩

theorem isNaN_neg (u : UnpackedFloat) : u.neg.isNaN = u.isNaN := by
  cases u <;> rfl

theorem rank_neg_lt_iff {u v : UnpackedFloat} : rank u.neg < rank v.neg ↔ rank v < rank u := by
  have hnegative : -Sign.negative = .positive := rfl
  have hpositive : -Sign.positive = .negative := rfl
  rcases u with (_ | _) | _ | s | ⟨(_ | _), m, e, _⟩ <;>
    rcases v with (_ | _) | _ | t | ⟨(_ | _), n, f, _⟩ <;>
      simp [UnpackedFloat.neg, rank, Prod.Lex.lt_iff, hnegative, hpositive] <;> omega

section Storing

variable {spec : Format}

theorem unpack_packComponents (s t : Sign) (e : BitVec spec.exponentBits)
    (m : BitVec spec.mantissaBitsWithoutImplicit) :
    unpack spec (packComponents spec s e m) =
      withSign s (unpack spec (packComponents spec t e m)) := by
  simp only [unpack, UnpackedFloat.unpackExponent_packComponents,
    UnpackedFloat.unpackMantissa_packComponents, UnpackedFloat.unpackSign_packComponents]
  split
  · split <;> simp [withSign]
  split
  · split <;> simp [withSign]
  · simp [withSign]

theorem unpack_pack_withSign {u : UnpackedFloat} (hu : u.isNaN = false) (s : Sign) :
    unpack spec (pack spec (withSign s u)) = withSign s (unpack spec (pack spec u)) := by
  cases u with
  | infinity t => exact unpack_packComponents ..
  | notANumber => cases hu
  | zero t => exact unpack_packComponents ..
  | finite t m e hm =>
    simp only [withSign, pack]
    split
    · exact unpack_packComponents ..
    split <;> exact unpack_packComponents ..

theorem isNaN_unpack_pack {u : UnpackedFloat} (hu : u.isNaN = false) :
    (unpack spec (pack spec u)).isNaN = false := by
  have hstored {e : BitVec spec.exponentBits} (s : Sign)
      (m : BitVec spec.mantissaBitsWithoutImplicit) (he : e ≠ -1#_) :
      (unpack spec (packComponents spec s e m)).isNaN = false := by
    simp only [unpack, UnpackedFloat.unpackExponent_packComponents,
      UnpackedFloat.unpackMantissa_packComponents, if_neg he]
    split
    · split <;> rfl
    · rfl
  cases u with
  | infinity s => simp [pack, packedInfinity, unpack, UnpackedFloat.isNaN]
  | notANumber => cases hu
  | zero s => simp [pack, UnpackedFloat.isNaN]
  | finite s m e hm =>
    simp only [pack]
    split
    · simp [packedInfinity, unpack, UnpackedFloat.isNaN]
    case isFalse hfits =>
    split
    · apply hstored
      intro hones
      have hval := congrArg BitVec.toNat hones
      rw [BitVec.toNat_ofNat, Nat.mod_eq_of_lt (by omega), BitVec.neg_one_eq_allOnes,
        BitVec.toNat_allOnes] at hval
      omega
    · apply hstored
      simp [Nat.ne_of_gt spec.he]

theorem Nonnegative.unpack_pack {u : UnpackedFloat} (h : Nonnegative u) :
    Nonnegative (unpack spec (pack spec u)) := by
  have hpositive {w : UnpackedFloat} (hw : w.isNaN = false) (hsign : w = withSign .positive w) :
      Nonnegative w := by
    cases w with
    | infinity s =>
      cases hsign
      exact .infinity
    | notANumber => cases hw
    | zero s => exact .zero s
    | finite s m e hm =>
      cases hsign
      exact .finite m e hm
  cases h with
  | zero s =>
    rw [pack, UnpackedFloat.unpack_packedZero]
    exact .zero s
  | finite m e hm =>
    exact hpositive (isNaN_unpack_pack rfl)
      (unpack_pack_withSign (u := .finite .positive m e hm) rfl _)
  | infinity =>
    exact hpositive (isNaN_unpack_pack rfl) (unpack_pack_withSign (u := .infinity .positive) rfl _)

theorem nonnegative_normalize {m : Int} (hm : 0 < m) (e : Int) :
    Nonnegative (UnpackedFloat.normalize spec m e .positive) := by
  rw [UnpackedFloat.normalize, compare_gt_iff_gt.mpr hm]
  simp only [UnpackedFloat.round, UnpackedFloat.roundWithAccuracy]
  split
  · exact .zero _
  · exact .finite ..

theorem decreaseExponent_pos {m : Nat} (hm : 0 < m) (e f : Int) :
    0 < (UnpackedFloat.decreaseExponent m e f).1 := by
  rw [UnpackedFloat.decreaseExponent, Nat.shiftLeft_eq]
  exact Nat.mul_pos hm (Nat.two_pow_pos _)

theorem Nonnegative.add {u v : UnpackedFloat} (hu : Nonnegative u) (hv : Nonnegative v) :
    Nonnegative (UnpackedFloat.add spec u v) := by
  cases hu with
  | zero s =>
    cases hv with
    | zero t =>
      rw [UnpackedFloat.add]
      split <;> exact .zero _
    | finite n f hn => exact .finite n f hn
    | infinity => exact .infinity
  | finite m e hm =>
    cases hv with
    | zero t => exact .finite m e hm
    | finite n f hn =>
      have hm' : 0 < m <<< (e - min e f).toNat := decreaseExponent_pos hm e (min e f)
      have hn' : 0 < n <<< (f - min e f).toNat := decreaseExponent_pos hn f (min e f)
      refine nonnegative_normalize ?_ _
      change (0 : Int) < ↑(m <<< (e - min e f).toNat) + ↑(n <<< (f - min e f).toNat)
      omega
    | infinity => exact .infinity
  | infinity => cases hv <;> exact .infinity

end Storing

theorem float_lt_iff {a b : Float} : a < b ↔ a.toModel.unpack.lt b.toModel.unpack = true :=
  decide_eq_true_iff

theorem float_le_iff {a b : Float} : a ≤ b ↔ a.toModel.unpack.le b.toModel.unpack = true :=
  decide_eq_true_iff

theorem unpack_zero : (0 : Float).toModel.unpack = .zero .positive := rfl

theorem float_zero_le_iff {a : Float} : 0 ≤ a ↔ Nonnegative a.toModel.unpack := by
  rw [float_le_iff, unpack_zero, zero_le_iff]

theorem unpack_neg (a : Float) : (-a).toModel.unpack = a.toModel.unpack.neg := by
  change unpack .binary64 (pack .binary64 a.toModel.unpack.neg) = a.toModel.unpack.neg
  cases hnumber : a.toModel.unpack with
  | notANumber => exact UnpackedFloat.unpack_packedNaN
  | _ =>
    have hstored : unpack .binary64 (pack .binary64 a.toModel.unpack) = a.toModel.unpack := by
      rw [Float.Model.unpack, UnpackedFloat.pack_unpack_of_valid a.toModel.valid]
    obtain ⟨s, hs⟩ := exists_withSign_eq_neg a.toModel.unpack
    rw [← hnumber, hs, unpack_pack_withSign (by rw [hnumber]; rfl), hstored]

theorem neg_lt_neg_iff {a b : Float} : -a < -b ↔ b < a := by
  rw [float_lt_iff, float_lt_iff, unpack_neg, unpack_neg, lt_iff_rank, lt_iff_rank, isNaN_neg,
    isNaN_neg, rank_neg_lt_iff, and_left_comm]

end Binary64

open Binary64

instance : OrderedScalar Float where
  lt_irrefl := by
    intro a h
    exact lt_irrefl _ (lt_iff_rank.mp (float_lt_iff.mp h)).2.2
  lt_trans := by
    intro a b c hab hbc
    obtain ⟨ha, -, hab⟩ := lt_iff_rank.mp (float_lt_iff.mp hab)
    obtain ⟨-, hc, hbc⟩ := lt_iff_rank.mp (float_lt_iff.mp hbc)
    exact float_lt_iff.mpr (lt_iff_rank.mpr ⟨ha, hc, hab.trans hbc⟩)
  lt_or_lt := by
    intro a b c hb hac
    obtain ⟨ha, hc, hac⟩ := lt_iff_rank.mp (float_lt_iff.mp hac)
    rcases lt_or_ge (rank a.toModel.unpack) (rank b.toModel.unpack) with hlt | hge
    · exact .inl (float_lt_iff.mpr (lt_iff_rank.mpr ⟨ha, hb, hlt⟩))
    · exact .inr (float_lt_iff.mpr (lt_iff_rank.mpr ⟨hb, hc, hge.trans_lt hac⟩))

instance : NonnegativeSums Float where
  zero_le_zero := by decide +kernel
  zero_le_neg_zero := by decide +kernel
  zero_le_of_lt := fun a h => float_le_iff.mpr (le_of_lt (float_lt_iff.mp h))
  zero_le_add := by
    intro a b ha hb
    have hsum : Nonnegative (UnpackedFloat.add .binary64 a.toModel.unpack b.toModel.unpack) :=
      (float_zero_le_iff.mp ha).add (float_zero_le_iff.mp hb)
    exact float_zero_le_iff.mpr hsum.unpack_pack
  isNaN_of_zero_le := fun a ha => (float_zero_le_iff.mp ha).isNaN_eq

end PopulationSearch
