import Mathlib.Data.List.Perm.Subperm
import PopulationSearch.Proofs.Tour
import PopulationSearch.Proofs.Wheel
import PopulationSearch.Tour.Walk

/-! An open walk and the cities ahead of it make up all cities, and its length is that of the tour
as it stands. -/

namespace PopulationSearch.Walk

variable {α : Type} [Scalar α] {d : Distances α} {w : Walk α}

structure Open (d : Distances α) (w : Walk α) : Prop where
  started : w.tour ≠ []
  perm : (w.tour ++ w.unvisited).Perm (List.range d.cities)
  ascending : w.unvisited.Pairwise (· < ·)
  length_eq : Tour.travelled d w.tour = .ok w.length

structure Closed (d : Distances α) (w : Walk α) : Prop where
  tour : Tour.IsClosed d.cities w.tour
  unvisited : w.unvisited = []
  length_eq : Tour.travelled d w.tour = .ok w.length

def Feasible (d : Distances α) (w : Walk α) : Prop := w = idle ∨ w.Open d ∨ w.Closed d

theorem placed_open {start : Nat} (h : start < d.cities) : (placed d.cities start).Open d where
  started := List.cons_ne_nil _ _
  perm := by
    have hmem : start ∈ List.range d.cities := List.mem_range.mpr h
    have hfilter := List.nodup_range.erase_eq_filter start (l := List.range d.cities)
    simp only [placed, ← hfilter]
    exact (List.perm_cons_erase hmem).symm
  ascending := List.pairwise_lt_range.filter _
  length_eq := Tour.travelled_singleton d start

namespace Open

theorem exists_current (h : w.Open d) : ∃ here, w.tour.getLast? = some here :=
  ⟨_, List.getLast?_eq_some_getLast h.started⟩

theorem nodup (h : w.Open d) : (w.tour ++ w.unvisited).Nodup := Tour.nodup_of_perm h.perm

theorem lt_of_mem_tour (h : w.Open d) {city : Nat} (hc : city ∈ w.tour) : city < d.cities :=
  Tour.lt_of_perm h.perm (List.mem_append_left _ hc)

theorem lt_of_mem_unvisited (h : w.Open d) {city : Nat} (hc : city ∈ w.unvisited) :
    city < d.cities := Tour.lt_of_perm h.perm (List.mem_append_right _ hc)

theorem ne_of_mem (h : w.Open d) {a b : Nat} (ha : a ∈ w.tour) (hb : b ∈ w.unvisited) : a ≠ b := by
  rintro rfl
  exact (List.nodup_append'.mp h.nodup).2.2 ha hb

theorem mem_unvisited_iff (h : w.Open d) {city : Nat} (hc : city < d.cities) :
    city ∈ w.unvisited ↔ city ∉ w.tour := by
  refine ⟨fun hahead hbehind => h.ne_of_mem hbehind hahead rfl, fun hbehind => ?_⟩
  have hmem := h.perm.mem_iff.mpr (List.mem_range.mpr hc)
  exact (List.mem_append.mp hmem).resolve_left hbehind

theorem length_add (h : w.Open d) : w.tour.length + w.unvisited.length = d.cities := by
  rw [← List.length_append]
  exact Tour.length_of_perm h.perm

theorem unvisited_pos (h : w.Open d) (hlt : w.tour.length < d.cities) :
    0 < w.unvisited.length := by
  have := h.length_add
  omega

theorem unvisited_eq_nil (h : w.Open d) (hall : w.tour.length = d.cities) : w.unvisited = [] := by
  have := h.length_add
  exact List.eq_nil_of_length_eq_zero (by omega)

theorem step_yields (hd : d.Sound) (h : w.Open d) {here there : Nat}
    (hhere : w.tour.getLast? = some here) (hthere : there ∈ w.unvisited) :
    Yields (d.distance here there) fun _ => True := by
  have hmem : here ∈ w.tour := List.mem_of_getLast? hhere
  exact (hd.edge here (h.lt_of_mem_tour hmem) there (h.lt_of_mem_unvisited hthere)
    (h.ne_of_mem hmem hthere)).mono fun _ _ => trivial

theorem advance_of_distance (h : w.Open d) {position here there : Nat} {step : α}
    (hhere : w.tour.getLast? = some here) (hthere : w.unvisited[position]? = some there)
    (hstep : d.distance here there = .ok step) :
    Yields (w.advance d position) fun w' => w'.Open d ∧ w'.tour = w.tour ++ [there] := by
  apply Yields.demand_bind hhere
  apply Yields.demand_bind hthere
  apply Yields.eq_bind hstep
  refine .pure ⟨⟨List.append_ne_nil_of_right_ne_nil _ (List.cons_ne_nil _ _), ?_, ?_, ?_⟩, rfl⟩
  · obtain ⟨hp, rfl⟩ := List.getElem?_eq_some_iff.mp hthere
    rw [List.append_assoc]
    exact ((List.getElem_cons_eraseIdx_perm hp).append_left w.tour).trans h.perm
  · exact h.ascending.sublist (List.eraseIdx_sublist ..)
  · exact Tour.travelled_append h.length_eq hhere hstep

theorem advance_yields (hd : d.Sound) (h : w.Open d) {position : Nat}
    (hp : position < w.unvisited.length) :
    Yields (w.advance d position) fun w' => w'.Open d ∧ ∃ city, w'.tour = w.tour ++ [city] := by
  obtain ⟨here, hhere⟩ := h.exists_current
  obtain ⟨there, hthere⟩ : ∃ there, w.unvisited[position]? = some there :=
    ⟨_, List.getElem?_eq_getElem hp⟩
  obtain ⟨step, hstep, -⟩ := h.step_yields hd hhere (List.mem_of_getElem? hthere)
  exact (h.advance_of_distance hhere hthere hstep).mono fun w' h' => ⟨h'.1, there, h'.2⟩

theorem close_of_distance (h : w.Open d) (hall : w.tour.length = d.cities) {here start : Nat}
    {step : α} (hhere : w.tour.getLast? = some here) (hstart : w.tour.head? = some start)
    (hstep : d.distance here start = .ok step) :
    Yields (w.close d) fun w' => w'.Closed d ∧ w'.tour = w.tour ++ [start] := by
  have hnil := h.unvisited_eq_nil hall
  have hperm : w.tour.Perm (List.range d.cities) := by
    simpa only [hnil, List.append_nil] using h.perm
  apply Yields.demand_bind hhere
  apply Yields.demand_bind hstart
  apply Yields.eq_bind hstep
  exact .pure ⟨⟨Tour.isClosed_append hperm hstart, hnil,
    Tour.travelled_append h.length_eq hhere hstep⟩, rfl⟩

theorem close_yields (hd : d.Sound) (h : w.Open d) (hall : w.tour.length = d.cities) :
    Yields (w.close d) fun w' => w'.Closed d ∧ ∃ city, w'.tour = w.tour ++ [city] := by
  obtain ⟨here, hhere⟩ := h.exists_current
  obtain ⟨start, hstart⟩ : ∃ start, w.tour.head? = some start :=
    ⟨_, List.head?_eq_some_head h.started⟩
  have hperm : w.tour.Perm (List.range d.cities) := by
    simpa only [h.unvisited_eq_nil hall, List.append_nil] using h.perm
  have hne : here ≠ start := by
    rintro rfl
    rw [List.getLast?_eq_getElem?] at hhere
    rw [List.head?_eq_getElem?] at hstart
    have hlast : w.tour.length - 1 < w.tour.length := by have := hd.two_le; omega
    have := (List.getElem?_inj hlast (Tour.nodup_of_perm hperm)).mp (hhere.trans hstart.symm)
    have := hd.two_le
    omega
  obtain ⟨step, hstep, -⟩ := hd.edge here (h.lt_of_mem_tour (List.mem_of_getLast? hhere)) start
    (h.lt_of_mem_tour (List.mem_of_head? hstart)) hne
  exact (h.close_of_distance hall hhere hstart hstep).mono fun w' h' => ⟨h'.1, start, h'.2⟩

theorem advanceNearest_yields (hd : d.Sound) (h : w.Open d) (hlt : w.tour.length < d.cities) :
    Yields (w.advanceNearest d) fun w' => w'.Open d ∧ ∃ city, w'.tour = w.tour ++ [city] := by
  obtain ⟨here, hhere⟩ := h.exists_current
  apply Yields.demand_bind hhere
  refine (Yields.mapM w.unvisited fun there => h.step_yields hd hhere).bind fun steps hsteps => ?_
  have hlen : w.unvisited.length = steps.length := hsteps.length_eq
  have hpos : 0 < steps.length := hlen ▸ h.unvisited_pos hlt
  refine h.advance_yields hd ?_
  rw [hlen]
  exact leaderIndex_lt _ (List.ne_nil_of_length_pos hpos)

end Open

theorem nearestFrom_yields (hd : d.Sound) {start : Nat} (h : start < d.cities) :
    Yields (nearestFrom d start) (Closed d) := by
  have htwo := hd.two_le
  simp only [nearestFrom, h, if_true]
  refine (Yields.iterate (fun k w => w.Open d ∧ w.tour.length = k + 1) (d.cities - 1)
    ⟨placed_open h, rfl⟩ ?_).bind ?_
  · rintro k hk w ⟨hopen, hlen⟩
    refine (hopen.advanceNearest_yields hd (by omega)).mono ?_
    rintro w' ⟨hopen', city, htour⟩
    exact ⟨hopen', by rw [htour, List.length_append, hlen]; rfl⟩
  · rintro w ⟨hopen, hlen⟩
    exact (hopen.close_yields hd (by omega)).mono fun w' hw' => hw'.1

theorem nearest_yields {γ : Type} [Source γ α] [BoundedIndex γ] (hd : d.Sound) :
    Draw.Yields (nearest d : Draw γ (Walk α)) (Closed d) := by
  refine (Draw.below_yields hd.cities_pos).bind fun start hstart => ?_
  exact .lift (nearestFrom_yields hd hstart)

end PopulationSearch.Walk
