import PopulationSearch.Proofs.Chance
import PopulationSearch.Proofs.Order
import PopulationSearch.Wheel

/-! Leaders and wheels return a position inside the list, whatever the comparisons say. -/

namespace PopulationSearch

section
variable {β : Type} (beats : β → β → Bool)

theorem leader?_go_mem (l xs : List β) (position held : Nat) (holder : β)
    (hxs : l.drop position = xs) (hheld : l[held]? = some holder) :
    l[(leader?.go beats position held holder xs).1]? =
      some (leader?.go beats position held holder xs).2 := by
  induction xs generalizing position held holder with
  | nil => exact hheld
  | cons x xs ih =>
    have hx : l[position]? = some x := by
      rw [← List.head?_drop, hxs, List.head?_cons]
    have hrest : l.drop (position + 1) = xs := by
      rw [← List.tail_drop, hxs, List.tail_cons]
    unfold leader?.go
    split
    · exact ih _ _ _ hrest hx
    · exact ih _ _ _ hrest hheld

theorem leader?_mem {l : List β} (hl : l ≠ []) :
    ∃ i x, leader? beats l = some (i, x) ∧ l[i]? = some x := by
  cases l with
  | nil => exact absurd rfl hl
  | cons x xs => exact ⟨_, _, rfl, leader?_go_mem beats (x :: xs) xs 1 0 x rfl rfl⟩

theorem getElem?_of_leader? {l : List β} {i : Nat} {x : β} (h : leader? beats l = some (i, x)) :
    l[i]? = some x := by
  have hl : l ≠ [] := by
    rintro rfl
    cases h
  obtain ⟨j, y, hlead, hy⟩ := leader?_mem beats hl
  cases hlead.symm.trans h
  exact hy

theorem leader?_go_unbeaten (hirrefl : ∀ x, beats x x = false)
    (htrans : ∀ x y z, beats x y = true → beats y z = true → beats x z = true)
    (passed xs : List β) (position held : Nat) (holder : β)
    (hpassed : ∀ y ∈ passed, beats y holder = false) :
    ∀ y ∈ passed ++ xs, beats y (leader?.go beats position held holder xs).2 = false := by
  induction xs generalizing passed position held holder with
  | nil => rwa [List.append_nil]
  | cons x xs ih =>
    rw [List.append_cons]
    unfold leader?.go
    split
    case isTrue hx =>
      apply ih
      rw [List.forall_mem_append]
      refine ⟨fun y hy => ?_, by simpa using hirrefl x⟩
      -- whatever beats the new holder would have beaten the old one
      by_contra hbeats
      rw [Bool.not_eq_false] at hbeats
      exact absurd (htrans y x holder hbeats hx) (by simpa using hpassed y hy)
    case isFalse hx =>
      apply ih
      rw [List.forall_mem_append]
      exact ⟨hpassed, by simpa using hx⟩

theorem unbeaten_of_leader? (hirrefl : ∀ x, beats x x = false)
    (htrans : ∀ x y z, beats x y = true → beats y z = true → beats x z = true) {l : List β}
    {i : Nat} {x : β} (h : leader? beats l = some (i, x)) : ∀ y ∈ l, beats y x = false := by
  cases l with
  | nil => cases h
  | cons y ys =>
    have hgo := leader?_go_unbeaten beats hirrefl htrans [y] ys 1 0 y (by simpa using hirrefl y)
    rwa [Option.some.inj h] at hgo

theorem leader?_go_beats_earlier (hirrefl : ∀ x, beats x x = false)
    (htrans : ∀ x y z, beats x y = true → beats y z = true → beats x z = true)
    (passed xs : List β) (held : Nat) (holder : β)
    (hsplit : ∀ y ∈ passed ++ xs, ∀ x z, beats x z = true → beats x y = true ∨ beats y z = true)
    (hpassed : ∀ y ∈ passed, beats y holder = false)
    (hearlier : ∀ j < held, ∀ y, (passed ++ xs)[j]? = some y → beats holder y = true) :
    ∀ j < (leader?.go beats passed.length held holder xs).1, ∀ y, (passed ++ xs)[j]? = some y →
      beats (leader?.go beats passed.length held holder xs).2 y = true := by
  induction xs generalizing passed held holder with
  | nil => exact hearlier
  | cons x xs ih =>
    have hlength : passed.length + 1 = (passed ++ [x]).length := by simp
    have hnext :=
      leader?_go_unbeaten beats hirrefl htrans passed [x] passed.length held holder hpassed
    unfold leader?.go at hnext ⊢
    rw [List.append_cons] at hsplit hearlier ⊢
    rw [hlength]
    split
    case isTrue hx =>
      rw [if_pos hx] at hnext
      refine ih _ _ _ hsplit hnext fun j hj y hy => ?_
      rw [List.append_assoc, List.getElem?_append_left hj] at hy
      have hmem : y ∈ passed := List.mem_of_getElem? hy
      refine (hsplit y (by simp [hmem]) x holder hx).resolve_right ?_
      rw [hpassed y hmem]
      exact Bool.false_ne_true
    case isFalse hx =>
      rw [if_neg hx] at hnext
      exact ih _ _ _ hsplit hnext hearlier

theorem leader?_beats_earlier (hirrefl : ∀ x, beats x x = false)
    (htrans : ∀ x y z, beats x y = true → beats y z = true → beats x z = true) {l : List β}
    (hsplit : ∀ y ∈ l, ∀ x z, beats x z = true → beats x y = true ∨ beats y z = true)
    {i : Nat} {x : β} (h : leader? beats l = some (i, x)) :
    ∀ j < i, ∀ y, l[j]? = some y → beats x y = true := by
  cases l with
  | nil => cases h
  | cons y ys =>
    have hgo := leader?_go_beats_earlier beats hirrefl htrans [y] ys 0 y hsplit
      (by simpa using hirrefl y) nofun
    rwa [List.length_singleton, Option.some.inj h] at hgo

theorem leader?_of_unbeatable {x : β} {l : List β} (h : ∀ y, beats y x = false) :
    leader? beats (x :: l) = some (0, x) := by
  have hgo (position : Nat) : leader?.go beats position 0 x l = (0, x) := by
    induction l generalizing position with
    | nil => rfl
    | cons y ys ih => simp [leader?.go, h, ih]
  exact congrArg some (hgo 1)

theorem leader?_satisfies {P : β → Prop} {x y : β} {l : List β} {i : Nat} (hx : P x)
    (hbeats : ∀ y z, beats y z = true → P y) (h : leader? beats (x :: l) = some (i, y)) : P y := by
  have hgo (l : List β) (position held : Nat) (holder : β) (hholder : P holder) :
      P (leader?.go beats position held holder l).2 := by
    induction l generalizing position held holder with
    | nil => exact hholder
    | cons z zs ih =>
      unfold leader?.go
      split
      case isTrue hz => exact ih _ _ _ (hbeats _ _ hz)
      case isFalse => exact ih _ _ _ hholder
  have hleader := hgo l 1 0 x hx
  rwa [Option.some.inj h] at hleader

theorem leaderIndex_lt {l : List β} (hl : l ≠ []) : leaderIndex beats l < l.length := by
  obtain ⟨i, x, hlead, hi⟩ := leader?_mem beats hl
  rw [leaderIndex, hlead]
  exact (List.getElem?_eq_some_iff.mp hi).1

end

section
variable {β δ : Type}

theorem leader?_map (beats : δ → δ → Bool) (f : β → δ) (l : List β) :
    leader? beats (l.map f) =
      (leader? (fun a b => beats (f a) (f b)) l).map (Prod.map id f) := by
  have hgo (xs : List β) (position held : Nat) (holder : β) :
      leader?.go beats position held (f holder) (xs.map f) =
        Prod.map id f (leader?.go (fun a b => beats (f a) (f b)) position held holder xs) := by
    induction xs generalizing position held holder with
    | nil => rfl
    | cons x xs ih =>
      simp only [List.map_cons, leader?.go]
      split
      · exact ih ..
      · exact ih ..
  cases l with
  | nil => rfl
  | cons x xs => exact congrArg some (hgo xs 1 0 x)

theorem leader?_congr {beats beats' : β → β → Bool} {l : List β}
    (h : ∀ x ∈ l, ∀ y ∈ l, beats x y = beats' x y) : leader? beats l = leader? beats' l := by
  have hgo (xs : List β) (hxs : xs ⊆ l) (position held : Nat) (holder : β) (hholder : holder ∈ l) :
      leader?.go beats position held holder xs = leader?.go beats' position held holder xs := by
    induction xs generalizing position held holder with
    | nil => rfl
    | cons x xs ih =>
      obtain ⟨hx, hxs⟩ := List.cons_subset.mp hxs
      simp only [leader?.go, h x hx holder hholder]
      split
      · exact ih hxs _ _ x hx
      · exact ih hxs _ _ holder hholder
  cases l with
  | nil => rfl
  | cons x xs => exact congrArg some (hgo xs (List.subset_cons_self x xs) 1 0 x List.mem_cons_self)

theorem leaderIndex_map (beats : δ → δ → Bool) (f : β → δ) (l : List β) :
    leaderIndex beats (l.map f) = leaderIndex (fun a b => beats (f a) (f b)) l := by
  simp [leaderIndex, leader?_map, Option.map_map, Function.comp_def]

theorem leaderIndex_congr {beats beats' : β → β → Bool} {l : List β}
    (h : ∀ x ∈ l, ∀ y ∈ l, beats x y = beats' x y) :
    leaderIndex beats l = leaderIndex beats' l := by
  rw [leaderIndex, leaderIndex, leader?_congr h]

end

theorem Ranks.exists_leader {α : Type} [Scalar α] {fitter : α → α → Bool} (hrank : Ranks fitter)
    {cities : List Nat} {value : Nat → α} (hne : cities ≠ [])
    (hascending : cities.Pairwise (· < ·))
    (hnumber : ∀ c ∈ cities, Scalar.isNaN (value c) = false) :
    ∃ c ∈ cities, cities[leaderIndex fitter (cities.map value)]? = some c ∧
      ∀ b ∈ cities, fitter (value b) (value c) = false ∧
        (b < c → fitter (value c) (value b) = true) := by
  have hvalues : cities.map value ≠ [] := by simpa using hne
  obtain ⟨i, x, hleader, hx⟩ := leader?_mem fitter hvalues
  rw [List.getElem?_map, Option.map_eq_some_iff] at hx
  obtain ⟨c, hc, rfl⟩ := hx
  have hindex : leaderIndex fitter (cities.map value) = i := by
    rw [leaderIndex, hleader]
    rfl
  have hunbeaten := unbeaten_of_leader? fitter hrank.irrefl hrank.trans hleader
  have hfirst := leader?_beats_earlier fitter hrank.irrefl hrank.trans (l := cities.map value)
    (List.forall_mem_map.mpr fun b hb x z => hrank.split x _ z (hnumber b hb)) hleader
  refine ⟨c, List.mem_of_getElem? hc, hindex ▸ hc, fun b hb => ⟨?_, fun hlt => ?_⟩⟩
  · exact hunbeaten _ (List.mem_map_of_mem hb)
  · obtain ⟨j, hj⟩ := List.mem_iff_getElem?.mp hb
    refine hfirst j ?_ (value b) (by rw [List.getElem?_map, hj]; rfl)
    by_contra hge
    obtain ⟨hil, rfl⟩ := List.getElem?_eq_some_iff.mp hc
    obtain ⟨hjl, rfl⟩ := List.getElem?_eq_some_iff.mp hj
    rcases Nat.lt_or_eq_of_le (Nat.le_of_not_lt hge) with hlater | rfl
    · exact Nat.lt_asymm hlt (List.pairwise_iff_getElem.mp hascending i j hil hjl hlater)
    · exact Nat.lt_irrefl _ hlt

namespace Wheel

variable {α : Type} [Scalar α]

def reach (weights : List α) (i : Nat) : α :=
  ((weights.take (i + 1)).map (· / Scalar.sum weights)).foldl (· + ·) 0

theorem getElem?_cumulative_eq {weights : List α} {i : Nat} (hi : i < weights.length) :
    (cumulative weights)[i]? = some (reach weights i) := by
  have hgo (total reached : α) (l : List α) (i : Nat) (hi : i < l.length) :
      (cumulative.go total reached l)[i]? =
        some (((l.take (i + 1)).map (· / total)).foldl (· + ·) reached) := by
    induction l generalizing reached i with
    | nil => exact absurd hi (Nat.not_lt_zero i)
    | cons w l ih =>
      cases i with
      | zero => simp [cumulative.go]
      | succ i => exact ih (reached + w / total) i (Nat.lt_of_succ_lt_succ hi)
  exact hgo _ _ _ _ hi

/-- A draw stops at the first sector that reaches it, and at the last one if none before does. -/
structure StopsAt (weights : List α) (s : α) (i : Nat) : Prop where
  lt : i < weights.length
  passed : ∀ j < i, ¬ s ≤ reach weights j
  stop : s ≤ reach weights i ∨ i + 1 = weights.length

theorem length_cumulative_go (total reached : α) (weights : List α) :
    (cumulative.go total reached weights).length = weights.length := by
  induction weights generalizing reached with
  | nil => rfl
  | cons w ws ih => rw [cumulative.go, List.length_cons, List.length_cons, ih]

@[simp] theorem length_cumulative (weights : List α) :
    (cumulative weights).length = weights.length := length_cumulative_go ..

omit [Scalar α] in
theorem firstOrLast_lt (passes : α → Bool) {wheel : List α} (h : 0 < wheel.length) :
    firstOrLast passes wheel < wheel.length := by
  unfold firstOrLast
  cases hfound : wheel.findIdx? passes with
  | none => exact Nat.sub_one_lt (Nat.ne_of_gt h)
  | some i => exact (List.findIdx?_eq_some_iff_getElem.mp hfound).1

theorem spin_lt {wheel : List α} (r : α) (h : 0 < wheel.length) : spin wheel r < wheel.length :=
  firstOrLast_lt _ h

theorem roulette_lt {weights : List α} (s : α) (h : 0 < weights.length) :
    roulette weights s < weights.length := by
  rw [← length_cumulative weights] at h ⊢
  exact firstOrLast_lt _ h

theorem roulette_stopsAt {weights : List α} (s : α) (h : 0 < weights.length) :
    StopsAt weights s (roulette weights s) := by
  have hlen := length_cumulative weights
  have hend (j : Nat) (hj : j < (cumulative weights).length) :
      (cumulative weights)[j] = reach weights j :=
    (List.getElem?_eq_some_iff.mp (getElem?_cumulative_eq (hlen ▸ hj))).2
  unfold roulette firstOrLast
  cases hfound : (cumulative weights).findIdx? fun stop => s ≤ stop with
  | some i =>
    obtain ⟨hi, hpass, hfail⟩ := List.findIdx?_eq_some_iff_getElem.mp hfound
    refine ⟨hlen ▸ hi, fun j hj => ?_, .inl ?_⟩
    · simpa [hend j (hj.trans hi)] using hfail j hj
    · simpa [hend i hi] using hpass
  | none =>
    refine ⟨?_, fun j hj => ?_, .inr ?_⟩
    · exact hlen.symm ▸ Nat.sub_one_lt (Nat.ne_of_gt h)
    · have hjl : j < (cumulative weights).length := Nat.lt_of_lt_of_le hj (Nat.sub_le _ _)
      simpa [hend j hjl] using List.findIdx?_eq_none_iff.mp hfound _ (List.getElem_mem hjl)
    · exact hlen.symm ▸ Nat.sub_add_cancel h

theorem heaviest_lt {weights : List α} (h : 0 < weights.length) :
    heaviest weights < weights.length :=
  leaderIndex_lt _ (List.ne_nil_of_length_pos h)

theorem select_yields {γ : Type} [Source γ α] {fitness : List α} (amount : Nat)
    (h : 0 < fitness.length) :
    Draw.Yields (select fitness amount : Draw γ (List Nat)) fun picks =>
      picks.length = amount ∧ ∀ i ∈ picks, i < fitness.length := by
  have hne : fitness.isEmpty = false := by
    rw [List.isEmpty_eq_false_iff]
    exact List.ne_nil_of_length_pos h
  rw [← length_cumulative fitness] at h ⊢
  simp only [select, hne, Bool.false_eq_true, if_false]
  exact Draw.Yields.times amount (Draw.unit_yields.bind fun r _ => .pure (spin_lt r h))

end Wheel
end PopulationSearch
