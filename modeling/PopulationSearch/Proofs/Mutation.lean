import Mathlib.Data.Set.Card
import PopulationSearch.Genetic.Operators
import PopulationSearch.Proofs.Chance

/-! Mutation exchanges two places. The second draw passes over the first, so none is idle. -/

namespace PopulationSearch.Genetic

variable {l l' : List Nat} {i j n x y : Nat}

structure Exchanged (i j : Nat) (l l' : List Nat) : Prop where
  length_eq : l'.length = l.length
  first : l'[i]? = l[j]?
  second : l'[j]? = l[i]?
  others : ∀ k, k ≠ i → k ≠ j → l'[k]? = l[k]?
  perm : l'.Perm l

theorem exchange_yields (hi : i < l.length) (hj : j < l.length) :
    Yields (exchange i j l) (Exchanged i j l) := by
  have hx : l[i]? = some l[i] := List.getElem?_eq_getElem hi
  have hy : l[j]? = some l[j] := List.getElem?_eq_getElem hj
  apply Yields.demand_bind hx
  apply Yields.demand_bind hy
  apply Yields.pure
  have hlen : (l.set i l[j]).length = l.length := List.length_set
  refine ⟨List.length_set.trans hlen, ?_, ?_, fun k hki hkj => ?_, exchanged_perm hx hy⟩
  · rcases eq_or_ne j i with rfl | hne
    · rw [List.getElem?_set_self (hlen.symm ▸ hj), hx]
    · rw [List.getElem?_set_ne hne, List.getElem?_set_self hi, hy]
  · rw [List.getElem?_set_self (hlen.symm ▸ hj), hx]
  · rw [List.getElem?_set_ne hkj.symm, List.getElem?_set_ne hki.symm]

theorem Exchanged.changed_eq (h : Exchanged i j l l') (hl : l.Nodup) (hi : i < l.length)
    (hj : j < l.length) (hij : i ≠ j) : {k : Nat | l'[k]? ≠ l[k]?} = {i, j} := by
  have hne : l[i]? ≠ l[j]? := fun heq => hij ((List.getElem?_inj hi hl).mp heq)
  ext k
  constructor
  · intro hk
    by_contra hout
    obtain ⟨hki, hkj⟩ := not_or.mp hout
    exact hk (h.others k hki hkj)
  · rintro (rfl | rfl) heq
    · exact hne (heq.symm.trans h.first)
    · exact hne (h.second.symm.trans heq)

theorem otherPlace_bijOn (hi : i < n) :
    Set.BijOn (otherPlace i) {k | k < n - 1} {k | k < n ∧ k ≠ i} := bijOn_passOver hi

def drawnPlaces (drawn : Nat × Nat) : Nat × Nat := (drawn.1, otherPlace drawn.1 drawn.2)

theorem drawnPlaces_bijOn (n : Nat) : Set.BijOn drawnPlaces {d | d.1 < n ∧ d.2 < n - 1}
    {p | p.1 < n ∧ p.2 < n ∧ p.1 ≠ p.2} := by
  refine ⟨?_, ?_, ?_⟩
  · rintro ⟨x, y⟩ ⟨hx, hy⟩
    obtain ⟨hlt, hne⟩ := (otherPlace_bijOn hx).mapsTo hy
    exact ⟨hx, hlt, hne.symm⟩
  · rintro ⟨x, y⟩ ⟨hx, hy⟩ ⟨x', y'⟩ ⟨-, hy'⟩ heq
    obtain ⟨hfirst, hsecond⟩ := Prod.mk.inj heq
    obtain rfl : x = x' := hfirst
    exact congrArg (Prod.mk x) ((otherPlace_bijOn hx).injOn hy hy' hsecond)
  · rintro ⟨i, j⟩ ⟨hi, hj, hij⟩
    obtain ⟨y, hy, hyj⟩ := (otherPlace_bijOn hi).surjOn ⟨hj, hij.symm⟩
    exact ⟨(i, y), ⟨hi, hy⟩, congrArg (Prod.mk i) hyj⟩

theorem ncard_draws_eq_two (hi : i < n) (hj : j < n) (hij : i ≠ j) :
    {d : Nat × Nat | (d.1 < n ∧ d.2 < n - 1) ∧
      (drawnPlaces d = (i, j) ∨ drawnPlaces d = (j, i))}.ncard = 2 := by
  have hbij := drawnPlaces_bijOn n
  obtain ⟨d, hd, hdij⟩ := hbij.surjOn (show (i, j) ∈ _ from ⟨hi, hj, hij⟩)
  obtain ⟨d', hd', hdji⟩ := hbij.surjOn (show (j, i) ∈ _ from ⟨hj, hi, hij.symm⟩)
  have hne : d ≠ d' := by
    rintro rfl
    exact hij (Prod.mk.inj (hdij.symm.trans hdji)).1
  rw [← Set.ncard_pair hne]
  congr 1
  ext e
  constructor
  · rintro ⟨he, heij | heji⟩
    · exact .inl (hbij.injOn he hd (heij.trans hdij.symm))
    · exact .inr (hbij.injOn he hd' (heji.trans hdji.symm))
  · rintro (rfl | rfl)
    · exact ⟨hd, .inl hdij⟩
    · exact ⟨hd', .inr hdji⟩

section Drawn

variable {γ α : Type} [Source γ α] {g g₁ g₂ : γ}

theorem swapMutation_of_length_lt (h : l.length < 2) :
    (swapMutation l : Draw γ (List Nat)).run g = .ok (l, g) := by
  rw [swapMutation, if_pos h]
  rfl

theorem swapMutation_run (hl : 2 ≤ l.length) (hx : Source.index l.length g = (x, g₁))
    (hy : Source.index (l.length - 1) g₁ = (y, g₂))
    (hexchange : exchange x (otherPlace x y) l = .ok l') :
    (swapMutation l : Draw γ (List Nat)).run g = .ok (l', g₂) := by
  have hfirst : (Draw.below l.length : Draw γ Nat).run g = .ok (x, g₁) :=
    (if_neg (by omega)).trans (congrArg Except.ok hx)
  have hsecond : (Draw.below (l.length - 1) : Draw γ Nat).run g₁ = .ok (y, g₂) :=
    (if_neg (by omega)).trans (congrArg Except.ok hy)
  rw [swapMutation, if_neg (Nat.not_lt_of_le hl), StateT.run_bind, hfirst, ok_bind,
    StateT.run_bind, hsecond, ok_bind, hexchange]
  rfl

/-- Two different places are exchanged, whatever is drawn, and each pair of places comes from two
draws, one in either order. -/
theorem swapMutation_exchanges_evenly (l : List Nat) :
    (l.length < 2 → ∀ g : γ, (swapMutation l : Draw γ (List Nat)).run g = .ok (l, g)) ∧
    (2 ≤ l.length → ∀ (x y : Nat) (g g₁ g₂ : γ), x < l.length → y < l.length - 1 →
      Source.index l.length g = (x, g₁) → Source.index (l.length - 1) g₁ = (y, g₂) →
      ∃ i j l', drawnPlaces (x, y) = (i, j) ∧ i < l.length ∧ j < l.length ∧ i ≠ j ∧
        (swapMutation l : Draw γ (List Nat)).run g = .ok (l', g₂) ∧ Exchanged i j l l' ∧
        ∀ n, l.Perm (List.range n) →
          l'.Perm (List.range n) ∧ {k : Nat | l'[k]? ≠ l[k]?}.ncard = 2) ∧
    Set.BijOn drawnPlaces {d | d.1 < l.length ∧ d.2 < l.length - 1}
      {p | p.1 < l.length ∧ p.2 < l.length ∧ p.1 ≠ p.2} ∧
    ∀ i < l.length, ∀ j < l.length, i ≠ j →
      {d : Nat × Nat | (d.1 < l.length ∧ d.2 < l.length - 1) ∧
        (drawnPlaces d = (i, j) ∨ drawnPlaces d = (j, i))}.ncard = 2 := by
  refine ⟨fun h g => swapMutation_of_length_lt h, fun hl x y g g₁ g₂ hx hy hfirst hsecond => ?_,
    drawnPlaces_bijOn l.length, fun i hi j hj hij => ncard_draws_eq_two hi hj hij⟩
  obtain ⟨-, hlt, hne⟩ := (drawnPlaces_bijOn l.length).mapsTo (show (x, y) ∈ _ from ⟨hx, hy⟩)
  obtain ⟨l', hexchange, h⟩ := exchange_yields hx hlt
  refine ⟨x, otherPlace x y, l', rfl, hx, hlt, hne, swapMutation_run hl hfirst hsecond hexchange, h,
    fun n hperm => ⟨h.perm.trans hperm, ?_⟩⟩
  rw [h.changed_eq (hperm.nodup_iff.mpr List.nodup_range) hx hlt hne]
  exact Set.ncard_pair hne

theorem swapMutation_exchanges_evenly_fiveGenes :
    ∃ l' g', (swapMutation [4, 2, 0, 3, 1] : Draw Generator (List Nat)).run (Generator.ofSeed 6) =
        .ok (l', g') ∧
      Exchanged 1 2 [4, 2, 0, 3, 1] l' ∧ l'.Perm (List.range 5) ∧
      {k : Nat | l'[k]? ≠ [4, 2, 0, 3, 1][k]?}.ncard = 2 ∧
      {d : Nat × Nat | (d.1 < 5 ∧ d.2 < 4) ∧
        (drawnPlaces d = (1, 2) ∨ drawnPlaces d = (2, 1))}.ncard = 2 ∧
      (swapMutation [0] : Draw Generator (List Nat)).run (Generator.ofSeed 6) =
        .ok ([0], Generator.ofSeed 6) := by
  have hfirst : (Source.index 5 (Generator.ofSeed 6)).1 = 1 := by decide +kernel
  have hsecond : (Source.index 4 (Source.index 5 (Generator.ofSeed 6)).2).1 = 1 := by
    decide +kernel
  obtain ⟨-, hlong, -, hpairs⟩ := swapMutation_exchanges_evenly (γ := Generator) [4, 2, 0, 3, 1]
  obtain ⟨hshort, -⟩ := swapMutation_exchanges_evenly (γ := Generator) [0]
  obtain ⟨i, j, l', hplaces, -, -, -, hrun, hexchanged, hperm⟩ :=
    hlong (by decide) 1 1 (Generator.ofSeed 6) _ _ (by decide) (by decide) (Prod.ext hfirst rfl)
      (Prod.ext hsecond rfl)
  cases hplaces
  obtain ⟨hperm, hchanged⟩ := hperm 5 (by decide)
  exact ⟨l', _, hrun, hexchanged, hperm, hchanged,
    hpairs 1 (by decide) 2 (by decide) (by decide), hshort (by decide) _⟩

end Drawn

end PopulationSearch.Genetic
