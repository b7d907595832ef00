import Mathlib.Data.List.Perm.Basic
import Mathlib.Data.Set.Function
import PopulationSearch.Chance.Generator
import PopulationSearch.Proofs.Outcome

/-! Laws of a source of random draws, which the seeded generator obeys. -/

namespace PopulationSearch

class BoundedIndex (γ : Type) {α : outParam Type} [Source γ α] : Prop where
  index_lt : ∀ (n : Nat) (g : γ), 0 < n → (Source.index n g).1 < n

class FaithfulShuffle (γ : Type) {α : outParam Type} [Source γ α] : Prop where
  shuffle_perm : ∀ (l : List Nat) (g : γ), (Source.shuffle l g).1.Perm l

namespace Draw

variable {γ α : Type} [Source γ α]

theorem run_unit (g : γ) : (unit : Draw γ α).run g = .ok (Source.unit g) := rfl

theorem below_yields [BoundedIndex γ] {n : Nat} (hn : 0 < n) :
    Yields (below n : Draw γ Nat) (· < n) := by
  intro g
  have h : (below n : Draw γ Nat) g = .ok (Source.index n g) := if_neg (Nat.ne_of_gt hn)
  exact ⟨_, h, BoundedIndex.index_lt n g hn⟩

theorem unit_yields : Yields (unit : Draw γ α) fun _ => True := fun _ => .ok trivial

theorem shuffle_yields [FaithfulShuffle γ] (l : List Nat) :
    Yields (shuffle l : Draw γ (List Nat)) fun l' => l'.Perm l :=
  fun g => .ok (FaithfulShuffle.shuffle_perm l g)

end Draw

theorem bijOn_passOver {passed n : Nat} (h : passed < n) :
    Set.BijOn (fun k => if passed ≤ k then k + 1 else k) {k | k < n - 1}
      {k | k < n ∧ k ≠ passed} := by
  refine ⟨fun k hk => ?_, fun k _ l _ heq => ?_, ?_⟩
  · simp only [Set.mem_ofPred_eq] at hk ⊢
    split <;> omega
  · dsimp only at heq
    split at heq <;> split at heq <;> omega
  · rintro k ⟨hk, hne⟩
    rcases Nat.lt_or_gt_of_ne hne with hbefore | hbehind
    · have hbelow : k < n - 1 := by omega
      exact ⟨k, hbelow, if_neg (Nat.not_le.mpr hbefore)⟩
    · have hbelow : k - 1 < n - 1 := by omega
      refine ⟨k - 1, hbelow, (if_pos (Nat.le_sub_one_of_lt hbehind)).trans ?_⟩
      exact Nat.sub_add_cancel (Nat.one_le_of_lt hbehind)

theorem exchanged_perm {l : List Nat} {i j x y : Nat} (hi : l[i]? = some x) (hj : l[j]? = some y) :
    ((l.set i y).set j x).Perm l := by
  obtain ⟨hil, rfl⟩ := List.getElem?_eq_some_iff.mp hi
  obtain ⟨hjl, rfl⟩ := List.getElem?_eq_some_iff.mp hj
  exact List.set_set_perm hil hjl

namespace Generator

theorem scaled_lt {base n : Nat} {word : Generator → Nat × Generator} (g : Generator)
    (hword : ∀ g, (word g).1 < base) (hn : 0 < n) : (scaled base word n g).1 < n := by
  have hbase : 0 < base := Nat.lt_of_le_of_lt (Nat.zero_le _) (hword g)
  have hsplit : base * ((word g).1 * n / base) + (word g).1 * n % base = (word g).1 * n :=
    Nat.div_add_mod _ _
  have hnext : ((word g).1 + 1) * n ≤ base * n := Nat.mul_le_mul_right n (hword g)
  rw [Nat.add_one_mul] at hnext
  have hhigh : (word g).1 * n / base < n := by
    rw [Nat.div_lt_iff_lt_mul hbase, Nat.mul_comm n base]
    omega
  simp only [scaled]
  split
  case isFalse => exact hhigh
  case isTrue hlow =>
    have hcarry : (word g).1 * n / base + 1 < n := by
      refine Nat.lt_of_mul_lt_mul_left (a := base) ?_
      rw [Nat.mul_add_one]
      omega
    dsimp only
    split <;> omega

theorem index_lt (n : Nat) (g : Generator) (hn : 0 < n) : (index n g).1 < n := by
  unfold index
  split
  · exact scaled_lt g (fun g => g.word.1.toNat_lt) hn
  · exact scaled_lt g (fun g => g.doubleWord.1.toNat_lt) hn

theorem swapAt_perm (l : List Nat) (i j : Nat) : (swapAt l i j).Perm l := by
  unfold swapAt
  split
  case h_1 x y hi hj => exact exchanged_perm hi hj
  case h_2 => exact .refl l

theorem shufflePlaces_perm (places : List Nat) (code left : Nat) (l : List Nat) (g : Generator) :
    (shufflePlaces places code left l g).1.Perm l := by
  induction places generalizing code left l g with
  | nil => exact .refl l
  | cons i places ih =>
    simp only [shufflePlaces]
    split <;> split <;> exact (ih ..).trans (swapAt_perm l i _)

theorem shuffle_perm (l : List Nat) (g : Generator) : (shuffle l g).1.Perm l := by
  unfold shuffle
  split
  · exact .refl l
  · exact shufflePlaces_perm ..

instance : BoundedIndex Generator := ⟨index_lt⟩

instance : FaithfulShuffle Generator := ⟨shuffle_perm⟩

end Generator
end PopulationSearch
