import PopulationSearch.Proofs.Tour

/-! The check for a permutation looks for a city that is too large or comes twice, never for a
missing one: a list of as many cities as there are cannot leave one out then. -/

namespace PopulationSearch.Tour

variable {n : Nat} {cities passed : List Nat} {seen : Array Bool}

structure Ticked (n : Nat) (passed : List Nat) (seen : Array Bool) : Prop where
  size_eq : seen.size = n
  getElem?_eq : ∀ city < n, seen[city]? = some (decide (city ∈ passed))

theorem ticked_replicate (n : Nat) : Ticked n [] (Array.replicate n false) where
  size_eq := Array.size_replicate
  getElem?_eq := fun city hcity => by simp [hcity]

theorem Ticked.tick (h : Ticked n passed seen) {city : Nat} (hcity : city < n) :
    Ticked n (city :: passed) (seen.setIfInBounds city true) where
  size_eq := Array.size_setIfInBounds.trans h.size_eq
  getElem?_eq := by
    intro other hother
    rcases eq_or_ne other city with rfl | hne
    · have hin : other < seen.size := h.size_eq.symm ▸ hcity
      simp [Array.getElem?_setIfInBounds_self_of_lt hin]
    · rw [Array.getElem?_setIfInBounds_ne hne.symm, h.getElem?_eq other hother]
      simp [hne]

theorem tickOff_yields (h : Ticked n passed seen) (cities : List Nat) :
    Yields (tickOff n cities seen) fun verdict =>
      (verdict = true ↔ cities.Nodup ∧ ∀ city ∈ cities, city < n ∧ city ∉ passed) := by
  induction cities generalizing passed seen with
  | nil => exact .ok (by simp)
  | cons city cities ih =>
    rw [tickOff]
    split
    case isTrue hle => exact .ok (by simp [Nat.not_lt_of_le hle])
    case isFalse hlt =>
    have hcity : city < n := Nat.lt_of_not_le hlt
    apply Yields.demand_bind (h.getElem?_eq city hcity)
    split
    case isTrue hticked =>
      have hpassed : city ∈ passed := of_decide_eq_true hticked
      exact .pure (by simp [hpassed])
    case isFalse hunticked =>
      have hfresh : city ∉ passed := fun hpassed => hunticked (decide_eq_true hpassed)
      refine (ih (h.tick hcity)).mono fun verdict hverdict => hverdict.trans ?_
      -- that the city is none of those behind it is told here city by city, there at once
      rw [List.nodup_cons, List.forall_mem_cons]
      constructor
      · rintro ⟨hnodup, hbehind⟩
        have honce : city ∉ cities := fun hmem =>
          (hbehind city hmem).2 (List.mem_cons_self ..)
        exact ⟨⟨honce, hnodup⟩, ⟨hcity, hfresh⟩, fun other hother =>
          (hbehind other hother).imp_right fun hout hpassed =>
            hout (List.mem_cons_of_mem _ hpassed)⟩
      · rintro ⟨⟨honce, hnodup⟩, -, hbehind⟩
        refine ⟨hnodup, fun other hother => (hbehind other hother).imp_right fun hout => ?_⟩
        rw [List.mem_cons, not_or]
        exact ⟨fun heq => honce (heq ▸ hother), hout⟩

theorem isPermutation_yields (cities : List Nat) (n : Nat) :
    Yields (isPermutation cities n) fun verdict =>
      (verdict = true ↔ cities.Perm (List.range n)) := by
  unfold isPermutation
  split
  case isTrue hlen =>
    exact .ok (iff_of_false Bool.false_ne_true fun h => hlen (length_of_perm h))
  case isFalse hlen =>
    refine (tickOff_yields (ticked_replicate n) cities).mono fun verdict hverdict =>
      hverdict.trans ?_
    constructor
    · rintro ⟨hnodup, hbelow⟩
      exact perm_of_nodup hnodup (Decidable.not_not.mp hlen) fun city hcity =>
        (hbelow city hcity).1
    · intro h
      exact ⟨nodup_of_perm h, fun city hcity => ⟨lt_of_perm h hcity, List.not_mem_nil⟩⟩

theorem perm_range_iff_count : cities.Perm (List.range n) ↔
    (∀ city < n, cities.count city = 1) ∧ ∀ city ∈ cities, city < n := by
  constructor
  · intro h
    refine ⟨fun city hcity => ?_, fun _ => lt_of_perm h⟩
    exact List.count_eq_one_of_mem (nodup_of_perm h) (h.mem_iff.mpr (List.mem_range.mpr hcity))
  · rintro ⟨hcount, hlt⟩
    have hmem (city : Nat) : city ∈ cities ↔ city < n := by
      refine ⟨hlt city, fun hcity => ?_⟩
      rw [← List.count_pos_iff, hcount city hcity]
      exact Nat.one_pos
    have hnodup : cities.Nodup := by
      rw [List.nodup_iff_count_le_one]
      intro city
      by_cases hcity : city < n
      · exact (hcount city hcity).le
      · rw [List.count_eq_zero_of_not_mem fun h => hcity (hlt city h)]
        exact Nat.zero_le 1
    rw [List.perm_ext_iff_of_nodup hnodup List.nodup_range]
    intro city
    rw [hmem, List.mem_range]

/-- Of any list, however large its entries, the check looks up nothing that the table does not have,
and it accepts exactly the permutations. -/
theorem isPermutation_exact (cities : List Nat) (n : Nat) :
    ∃ verdict, isPermutation cities n = .ok verdict ∧
      (verdict = true ↔ (∀ city < n, cities.count city = 1) ∧ ∀ city ∈ cities, city < n) := by
  obtain ⟨verdict, hverdict, hperm⟩ := isPermutation_yields cities n
  exact ⟨verdict, hverdict, hperm.trans perm_range_iff_count⟩

end PopulationSearch.Tour
