import Mathlib.Data.List.Rotate
import Mathlib.Data.List.Zip
import Mathlib.Data.Rat.Floor
import PopulationSearch.Proofs.Exact
import PopulationSearch.Proofs.Tour

/-! A permutation and its closed tour have the same edges in the same order, so their lengths are
rounded alike. -/

namespace PopulationSearch.Tour

section Edges

theorem legs_close (cities : List Nat) : legs (close cities) = cities.zip (cities.rotate 1) := by
  cases cities with
  | nil => rfl
  | cons first cities =>
    have hlen : (first :: cities).length = (cities ++ [first]).length := by simp
    rw [List.rotate_cons_succ, List.rotate_zero, close, legs, List.head?_cons, Option.toList_some,
      List.cons_append, List.tail_cons, ← List.cons_append, ← List.append_nil (cities ++ [first]),
      List.zip_append hlen]
    simp

theorem mem_of_mem_legs_close {cities : List Nat} {a b : Nat} (h : (a, b) ∈ legs (close cities)) :
    a ∈ cities ∧ b ∈ cities := by
  rw [legs_close] at h
  obtain ⟨ha, hb⟩ := List.of_mem_zip h
  exact ⟨ha, List.mem_rotate.mp hb⟩

theorem legs_close_rotate (cities : List Nat) (k : Nat) :
    legs (close (cities.rotate k)) = (legs (close cities)).rotate k := by
  rw [legs_close, legs_close, List.rotate_rotate, Nat.add_comm, ← List.rotate_rotate]
  exact (List.zipWith_rotate_distrib _ _ _ _ (List.length_rotate ..).symm).symm

theorem rotate_one_reverse (cities : List Nat) :
    (cities.rotate 1).reverse.rotate 1 = cities.reverse := by
  cases cities with
  | nil => rfl
  | cons first cities => simp

theorem legs_close_reverse (cities : List Nat) :
    legs (close cities.reverse) = ((legs (close cities)).map Prod.swap).reverse.rotate 1 := by
  have hlen : (cities.rotate 1).length = cities.length := List.length_rotate ..
  have hreverse : ((cities.rotate 1).zip cities).reverse =
      (cities.rotate 1).reverse.zip cities.reverse := List.reverse_zipWith hlen
  rw [legs_close, legs_close, List.zip_swap, hreverse]
  refine Eq.trans ?_ (List.zipWith_rotate_distrib _ _ _ _ (by simp [hlen])).symm
  rw [rotate_one_reverse]
  rfl

end Edges

theorem cyclicLength_eq_closedLength {α : Type} [Scalar α] (d : Distances α) {cities : List Nat}
    (hne : cities ≠ []) : cyclicLength d cities = closedLength d (close cities) := by
  have hfirst := List.head?_eq_some_head hne
  have hlast := List.getLast?_eq_some_getLast hne
  rw [cyclicLength, hfirst, hlast, close, hfirst, Option.toList_some, closedLength, closedLength,
    legs_append cities _ hlast, List.mapM_append]
  simp only [List.mapM_cons, List.mapM_nil, bind_assoc, pure_bind, Scalar.sum, List.foldl_append,
    List.foldl_cons, List.foldl_nil]

theorem cyclicLength_yields_of_defined {α : Type} [Scalar α] {d : Distances α} {cities : List Nat}
    (h : ∀ i ∈ cities, ∀ j ∈ cities, Yields (d.distance i j) fun _ => True) :
    Yields (cyclicLength d cities) fun _ => True := by
  rcases eq_or_ne cities [] with rfl | hne
  · exact .ok trivial
  rw [cyclicLength_eq_closedLength d hne]
  refine (Yields.mapM (R := fun _ _ => True) (legs (close cities)) fun leg hleg => ?_).bind
    fun _ _ => .pure trivial
  obtain ⟨hfirst, hsecond⟩ := mem_of_mem_legs_close hleg
  exact h _ hfirst _ hsecond

section Exact

variable {K : Type} [Field K] [LinearOrder K] [FloorSemiring K] {d : Distances K}
  {cities tour : List Nat} {x : K}

attribute [local instance] Scalar.exact

theorem exists_steps (h : closedLength d tour = .ok x) :
    ∃ steps, List.Forall₂ (fun leg y => d.distance leg.1 leg.2 = .ok y) (legs tour) steps ∧
      x = steps.sum := by
  obtain ⟨steps, hsteps, hx⟩ := bind_eq_ok.mp h
  refine ⟨steps, forall₂_of_mapM_eq_ok hsteps, ?_⟩
  rw [← Scalar.sum_exact]
  exact (Except.ok.inj hx).symm

theorem closedLength_of_perm {edges : List (Nat × Nat)} {steps : List K}
    (h : (legs tour).Perm edges)
    (hsteps : List.Forall₂ (fun leg y => d.distance leg.1 leg.2 = .ok y) edges steps) :
    closedLength d tour = .ok steps.sum := by
  obtain ⟨steps', hsteps', hperm⟩ := List.perm_comp_forall₂ h hsteps
  rw [closedLength, mapM_eq_ok_of_forall₂ hsteps', ok_bind, Scalar.sum_exact, hperm.sum_eq]
  rfl

theorem cyclicLength_rotate (d : Distances K) (cities : List Nat) (k : Nat) (x : K) :
    cyclicLength d (cities.rotate k) = .ok x ↔ cyclicLength d cities = .ok x := by
  rcases eq_or_ne cities [] with rfl | hne
  · rw [List.rotate_nil]
  have hperm : (legs (close (cities.rotate k))).Perm (legs (close cities)) := by
    rw [legs_close_rotate]
    exact List.rotate_perm ..
  rw [cyclicLength_eq_closedLength d hne,
    cyclicLength_eq_closedLength d (mt List.rotate_eq_nil_iff.mp hne)]
  constructor
  · intro h
    obtain ⟨steps, hsteps, rfl⟩ := exists_steps h
    exact closedLength_of_perm hperm.symm hsteps
  · intro h
    obtain ⟨steps, hsteps, rfl⟩ := exists_steps h
    exact closedLength_of_perm hperm hsteps

theorem cyclicLength_reverse_of_symmetric
    (hd : ∀ i ∈ cities, ∀ j ∈ cities, d.distance i j = d.distance j i)
    (h : cyclicLength d cities = .ok x) : cyclicLength d cities.reverse = .ok x := by
  rcases eq_or_ne cities [] with rfl | hne
  · exact h
  rw [cyclicLength_eq_closedLength d hne] at h
  rw [cyclicLength_eq_closedLength d (List.reverse_ne_nil_iff.mpr hne)]
  obtain ⟨steps, hsteps, rfl⟩ := exists_steps h
  have hperm : (legs (close cities.reverse)).Perm ((legs (close cities)).map Prod.swap) := by
    rw [legs_close_reverse]
    exact (List.rotate_perm ..).trans (List.reverse_perm _)
  refine closedLength_of_perm hperm (List.forall₂_map_left_iff.mpr ?_)
  refine ((List.forall₂_and_left _ _).mpr ⟨fun leg => mem_of_mem_legs_close, hsteps⟩).imp ?_
  rintro leg y ⟨⟨hfirst, hsecond⟩, hy⟩
  rw [Prod.fst_swap, Prod.snd_swap, hd _ hsecond _ hfirst, hy]

/-- A permutation and its closed tour have one length, rounded alike. The exact length is the same
wherever the permutation begins, and backwards if the distances are symmetric. -/
theorem cyclicLength_agrees :
    (∀ (α : Type) [Scalar α] (d : Distances α) (cities : List Nat),
      (cities ≠ [] → cyclicLength d cities = closedLength d (close cities)) ∧
      ((∀ i ∈ cities, ∀ j ∈ cities, Yields (d.distance i j) fun _ => True) →
        Yields (cyclicLength d cities) fun _ => True)) ∧
    (∀ (d : Distances K) (cities : List Nat) (k : Nat) (x : K),
      cyclicLength d (cities.rotate k) = .ok x ↔ cyclicLength d cities = .ok x) ∧
    ∀ (d : Distances K) (cities : List Nat),
      (∀ i ∈ cities, ∀ j ∈ cities, d.distance i j = d.distance j i) → ∀ x,
      cyclicLength d cities.reverse = .ok x ↔ cyclicLength d cities = .ok x := by
  refine ⟨fun α _ d cities => ⟨cyclicLength_eq_closedLength d, cyclicLength_yields_of_defined⟩,
    cyclicLength_rotate, fun d cities hd x => ⟨fun h => ?_, cyclicLength_reverse_of_symmetric hd⟩⟩
  have hback := cyclicLength_reverse_of_symmetric
    (fun i hi j hj => hd i (List.mem_reverse.mp hi) j (List.mem_reverse.mp hj)) h
  rwa [List.reverse_reverse] at hback

def rowOfCities : Distances ℚ := ⟨4, fun i j => .ok (max i j - min i j : Nat)⟩

theorem cyclicLength_agrees_rowOfCities :
    cyclicLength fourCities [2, 0, 3, 1] = closedLength fourCities [2, 0, 3, 1, 2] ∧
    cyclicLength rowOfCities [0, 3, 1, 2] = .ok 8 ∧
    cyclicLength rowOfCities [3, 1, 2, 0] = .ok 8 ∧
    cyclicLength rowOfCities [2, 1, 3, 0] = .ok 8 ∧
    Yields (cyclicLength fourCities [3]) fun _ => True := by
  obtain ⟨hforms, hrotate, hreverse⟩ := cyclicLength_agrees (K := ℚ)
  have hlength : cyclicLength rowOfCities [0, 3, 1, 2] = .ok 8 := by decide +kernel
  refine ⟨(hforms Float fourCities [2, 0, 3, 1]).1 (by decide), hlength,
    (hrotate rowOfCities [0, 3, 1, 2] 1 8).mpr hlength,
    (hreverse rowOfCities [0, 3, 1, 2] ?_ 8).mpr hlength,
    (hforms Float fourCities [3]).2 ?_⟩
  · intro i _ j _
    simp only [rowOfCities, max_comm i j, min_comm i j]
  · simp only [List.forall_mem_singleton]
    decide +kernel

end Exact
end PopulationSearch.Tour
