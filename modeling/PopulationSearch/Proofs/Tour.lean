import Mathlib.Data.List.Nodup
import Mathlib.Data.List.Perm.Subperm
import PopulationSearch.Proofs.Grid
import PopulationSearch.Proofs.Rejections
import PopulationSearch.Tour.Basic

/-! Tours of sound tables, and their lengths as they are added up step by step. -/

namespace PopulationSearch

variable {α : Type} [Scalar α]

structure Distances.Sound (d : Distances α) : Prop where
  two_le : 2 ≤ d.cities
  edge : ∀ i < d.cities, ∀ j < d.cities, i ≠ j →
    Yields (d.distance i j) fun x => 0 < x ∧ Scalar.isFinite x

theorem Distances.Sound.cities_pos {d : Distances α} (h : d.Sound) : 0 < d.cities :=
  Nat.zero_lt_of_lt h.two_le

def Distances.Fails (d : Distances α) (f : Fault) : Prop :=
  ∃ i < d.cities, ∃ j < d.cities, i ≠ j ∧ d.distance i j = .error f

theorem Distances.validate_meets (d : Distances α) :
    Meets d.validate (fun _ => d.Sound) (Failure.Blames d.Fails) := by
  simp only [validate]
  split
  case isTrue => exact trivial
  case isFalse =>
  split
  case isTrue => exact trivial
  case isFalse hmany =>
  apply Meets.imp (P := fun _ => ∀ edge ∈ Grid.offDiagonal d.cities,
    Yields (d.distance edge.1 edge.2) fun x => 0 < x ∧ Scalar.isFinite x)
  · refine Meets.forM _ fun edge hedge => ?_
    obtain ⟨hi, hj, hij⟩ := Grid.mem_offDiagonal.mp hedge
    have hdistance := (Meets.result (d.distance edge.1 edge.2)).mono (fun _ => id)
      fun f hf => (⟨edge.1, hi, edge.2, hj, hij, hf⟩ : d.Fails f)
    refine hdistance.of_fault.bind fun value hvalue => ?_
    split
    case isTrue hgood => exact .pure ⟨value, hvalue, hgood⟩
    case isFalse => exact trivial
  · intro _ hedges
    exact ⟨by omega, fun i hi j hj hij => hedges (i, j) (Grid.mem_offDiagonal.mpr ⟨hi, hj, hij⟩)⟩

def fourCities : Distances Float :=
  DistanceTable.toDistances ⟨⟨4, #[0, 1, 2, 3, 1, 0, 1, 2, 2, 1.5, 0, 1, 3, 2, 1, 0]⟩⟩

namespace Tour

theorem legs_cons_cons (x y : Nat) (tour : List Nat) :
    legs (x :: y :: tour) = (x, y) :: legs (y :: tour) := rfl

theorem getElem?_legs {tour : List Nat} {k a b : Nat} :
    (legs tour)[k]? = some (a, b) ↔ tour[k]? = some a ∧ tour[k + 1]? = some b := by
  rw [legs, List.getElem?_zip_eq_some, List.getElem?_tail]

theorem length_legs (tour : List Nat) : (legs tour).length = tour.length - 1 := by
  rw [legs, List.length_zip, List.length_tail]
  omega

theorem map_fst_legs (tour : List Nat) : (legs tour).map Prod.fst = tour.dropLast := by
  induction tour with
  | nil => rfl
  | cons x tour ih =>
    cases tour with
    | nil => rfl
    | cons y tour => rw [legs_cons_cons, List.map_cons, ih, List.dropLast_cons_cons]

theorem legs_append (tour : List Nat) {here : Nat} (there : Nat)
    (h : tour.getLast? = some here) : legs (tour ++ [there]) = legs tour ++ [(here, there)] := by
  obtain ⟨before, rfl⟩ := List.getLast?_eq_some_iff.mp h
  clear h
  induction before with
  | nil => rfl
  | cons x before ih =>
    cases before with
    | nil => rfl
    | cons y before =>
      simp only [List.cons_append, legs_cons_cons] at ih ⊢
      rw [ih]

theorem mem_of_mem_legs {tour : List Nat} {a b : Nat} (h : (a, b) ∈ legs tour) :
    a ∈ tour ∧ b ∈ tour := by
  have hzip := List.of_mem_zip h
  exact ⟨hzip.1, List.mem_of_mem_tail hzip.2⟩

theorem ne_of_mem_legs {tour : List Nat} (htour : tour.Nodup) {a b : Nat}
    (h : (a, b) ∈ legs tour) : a ≠ b := by
  obtain ⟨k, hk⟩ := List.mem_iff_getElem?.mp h
  obtain ⟨ha, hb⟩ := getElem?_legs.mp hk
  rintro rfl
  have hka : k < tour.length := (List.getElem?_eq_some_iff.mp ha).1
  exact k.succ_ne_self ((List.getElem?_inj hka htour).mp (ha.trans hb.symm)).symm

def travelled (d : Distances α) (tour : List Nat) : Except Fault α := do
  let steps ← (legs tour).mapM fun leg => d.distance leg.1 leg.2
  return steps.foldl (· + ·) 0

theorem travelled_singleton (d : Distances α) (start : Nat) : travelled d [start] = .ok 0 := rfl

theorem travelled_append {d : Distances α} {tour : List Nat} {here there : Nat} {x step : α}
    (htour : travelled d tour = .ok x) (hhere : tour.getLast? = some here)
    (hstep : d.distance here there = .ok step) :
    travelled d (tour ++ [there]) = .ok (x + step) := by
  obtain ⟨steps, hsteps, hx⟩ := bind_eq_ok.mp htour
  cases hx
  rw [travelled, legs_append tour there hhere, List.mapM_append, hsteps]
  simp only [List.mapM_cons, List.mapM_nil, hstep, ok_bind, pure_bind]
  rw [List.foldl_append]
  rfl

structure IsClosed (n : Nat) (tour : List Nat) : Prop where
  length_eq : tour.length = n + 1
  ends : tour.head? = tour.getLast?
  perm : (tour.take n).Perm (List.range n)

theorem nodup_of_perm {n : Nat} {cities : List Nat} (h : cities.Perm (List.range n)) :
    cities.Nodup := h.nodup_iff.mpr List.nodup_range

theorem lt_of_perm {n : Nat} {cities : List Nat} (h : cities.Perm (List.range n)) {city : Nat}
    (hc : city ∈ cities) : city < n := List.mem_range.mp (h.mem_iff.mp hc)

theorem length_of_perm {n : Nat} {cities : List Nat} (h : cities.Perm (List.range n)) :
    cities.length = n := h.length_eq.trans List.length_range

theorem perm_of_nodup {n : Nat} {cities : List Nat} (h : cities.Nodup)
    (hlen : cities.length = n) (hlt : ∀ city ∈ cities, city < n) :
    cities.Perm (List.range n) := by
  have hsub : cities ⊆ List.range n := fun city hcity => List.mem_range.mpr (hlt city hcity)
  apply (h.subperm hsub).perm_of_length_le
  rw [List.length_range, hlen]

theorem cyclicLength_yields {d : Distances α} (hd : d.Sound) {cities : List Nat}
    (h : cities.Perm (List.range d.cities)) : Yields (cyclicLength d cities) fun _ => True := by
  have hnodup := nodup_of_perm h
  have hlt : 1 < cities.length := by
    rw [length_of_perm h]
    exact hd.two_le
  have hne : cities ≠ [] := List.ne_nil_of_length_pos (Nat.zero_lt_of_lt hlt)
  have hends : cities.getLast hne ≠ cities.head hne := by
    rw [List.getLast_eq_getElem, List.head_eq_getElem]
    intro heq
    have := (List.Nodup.getElem_inj_iff hnodup).mp heq
    omega
  have hback := hd.edge _ (lt_of_perm h (List.getLast_mem hne)) _
    (lt_of_perm h (List.head_mem hne)) hends
  have hthere : Yields (closedLength d cities) fun _ => True := by
    refine (Yields.mapM (R := fun _ _ => True) (legs cities) fun leg hleg => ?_).bind
      fun _ _ => .pure trivial
    obtain ⟨ha, hb⟩ := mem_of_mem_legs hleg
    exact (hd.edge leg.1 (lt_of_perm h ha) leg.2 (lt_of_perm h hb)
      (ne_of_mem_legs hnodup hleg)).mono fun _ _ => trivial
  rw [cyclicLength, List.head?_eq_some_head hne, List.getLast?_eq_some_getLast hne]
  exact hthere.bind fun _ _ => hback.bind fun _ _ => .pure trivial

theorem isClosed_append {n start : Nat} {cities : List Nat} (h : cities.Perm (List.range n))
    (hstart : cities.head? = some start) : IsClosed n (cities ++ [start]) := by
  have hlen := length_of_perm h
  refine ⟨by rw [List.length_append, hlen]; rfl, ?_, ?_⟩
  · rw [List.head?_append, hstart, List.getLast?_concat]
    rfl
  · rwa [← hlen, List.take_left, hlen]

theorem isClosed_close {n : Nat} (hn : 0 < n) {cities : List Nat}
    (h : cities.Perm (List.range n)) : IsClosed n (close cities) := by
  cases cities with
  | nil => exact absurd (length_of_perm h) (Nat.ne_of_lt hn)
  | cons start cities => exact isClosed_append h rfl

theorem take_close {n : Nat} {cities : List Nat} (h : cities.length = n) :
    (close cities).take n = cities := by
  rw [close, ← h, List.take_left]

namespace IsClosed

variable {n : Nat} {tour : List Nat}

theorem dropLast_eq (h : IsClosed n tour) : tour.dropLast = tour.take n := by
  rw [List.dropLast_eq_take, h.length_eq]
  rfl

theorem nodup_legs (h : IsClosed n tour) : (legs tour).Nodup := by
  have hfst : ((legs tour).map Prod.fst).Nodup := by
    rw [map_fst_legs, h.dropLast_eq]
    exact nodup_of_perm h.perm
  exact List.Nodup.of_map _ hfst

theorem getElem?_eq_zero (h : IsClosed n tour) : tour[n]? = tour[0]? := by
  rw [← List.head?_eq_getElem?, h.ends, List.getLast?_eq_getElem?, h.length_eq]
  rfl

theorem lt_of_mem (h : IsClosed n tour) (hn : 0 < n) {city : Nat} (hc : city ∈ tour) :
    city < n := by
  obtain ⟨k, hk⟩ := List.mem_iff_getElem?.mp hc
  have hkn : k < n + 1 := by
    rw [← h.length_eq]
    exact (List.getElem?_eq_some_iff.mp hk).1
  obtain ⟨k', hk', hfirst⟩ : ∃ k' < n, tour[k']? = some city := by
    rcases Nat.lt_succ_iff_lt_or_eq.mp hkn with hlt | rfl
    · exact ⟨k, hlt, hk⟩
    · exact ⟨0, hn, h.getElem?_eq_zero.symm.trans hk⟩
  refine lt_of_perm h.perm (List.mem_iff_getElem?.mpr ⟨k', ?_⟩)
  rw [List.getElem?_take_of_lt hk', hfirst]

theorem ne_of_mem_legs (h : IsClosed n tour) (hn : 2 ≤ n) {a b : Nat}
    (hab : (a, b) ∈ legs tour) : a ≠ b := by
  obtain ⟨k, hk⟩ := List.mem_iff_getElem?.mp hab
  obtain ⟨ha, hb⟩ := getElem?_legs.mp hk
  have hkn : k + 1 < n + 1 := by
    rw [← h.length_eq]
    exact (List.getElem?_eq_some_iff.mp hb).1
  have hnodup := nodup_of_perm h.perm
  have hlen : (tour.take n).length = n := length_of_perm h.perm
  obtain ⟨k', hk', hne, hb'⟩ : ∃ k' < n, k' ≠ k ∧ tour[k']? = some b := by
    rcases Nat.lt_succ_iff_lt_or_eq.mp hkn with hlt | heq
    · exact ⟨k + 1, hlt, k.succ_ne_self, hb⟩
    · refine ⟨0, by omega, by omega, ?_⟩
      rw [← h.getElem?_eq_zero, ← heq, hb]
  have ha' : (tour.take n)[k]? = some a := by rw [List.getElem?_take_of_lt (by omega), ha]
  have hb'' : (tour.take n)[k']? = some b := by rw [List.getElem?_take_of_lt hk', hb']
  rintro rfl
  exact hne ((List.getElem?_inj (by omega) hnodup).mp (hb''.trans ha'.symm))

end IsClosed
end Tour
end PopulationSearch
