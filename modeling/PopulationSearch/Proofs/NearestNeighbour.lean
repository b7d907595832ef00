import PopulationSearch.Proofs.DoubleLaws
import PopulationSearch.Proofs.Walk

/-! Nearest-neighbour tours. Distances only have to be numbers: they may be zero, negative or
infinite, and different in the two directions. -/

namespace PopulationSearch

variable {α : Type} [Scalar α] {d : Distances α} {w : Walk α}

namespace Distances

def Numeric (d : Distances α) : Prop :=
  ∀ i < d.cities, ∀ j < d.cities, Yields (d.distance i j) fun x => i ≠ j → Scalar.isNaN x = false

instance (d : Distances α) : Decidable d.Numeric :=
  inferInstanceAs (Decidable (∀ i < d.cities, ∀ j < d.cities,
    Yields (d.distance i j) fun x => i ≠ j → Scalar.isNaN x = false))

/-- Of the cities outside a list, the lowest-numbered of those nearest to `here`. -/
structure NearestOutside (d : Distances α) (visited : List Nat) (here there : Nat) : Prop where
  lt : there < d.cities
  not_mem : there ∉ visited
  nearest : Yields (d.distance here there) fun x => ∀ city < d.cities, city ∉ visited →
    Yields (d.distance here city) fun y => x ≤ y ∧ (city < there → x < y)

def NearestLeg (d : Distances α) (tour : List Nat) (k : Nat) : Prop :=
  ∃ here there, tour[k]? = some here ∧ tour[k + 1]? = some there ∧
    d.NearestOutside (tour.take (k + 1)) here there

theorem NearestLeg.append {tour : List Nat} {k : Nat} (h : d.NearestLeg tour k) (city : Nat) :
    d.NearestLeg (tour ++ [city]) k := by
  obtain ⟨here, there, hhere, hthere, hnearest⟩ := h
  have hk : k + 1 < tour.length := (List.getElem?_eq_some_iff.mp hthere).1
  refine ⟨here, there, ?_, ?_, ?_⟩
  · rw [List.getElem?_append_left (Nat.lt_of_succ_lt hk), hhere]
  · rw [List.getElem?_append_left hk, hthere]
  · rwa [List.take_append_of_le_length hk.le]

end Distances

variable [ComparableScalar α]

theorem Walk.Open.advanceNearest_nearest (hd : d.Numeric) (h : w.Open d)
    (hmore : w.tour.length < d.cities) :
    Yields (w.advanceNearest d) fun w' => w'.Open d ∧ ∃ here there,
      w.tour.getLast? = some here ∧ w'.tour = w.tour ++ [there] ∧
      d.NearestOutside w.tour here there := by
  obtain ⟨here, hhere⟩ := h.exists_current
  have hmem : here ∈ w.tour := List.mem_of_getLast? hhere
  have : Nonempty α := ⟨0⟩
  obtain ⟨value, hvalue, hsteps⟩ := Yields.exists_map (l := w.unvisited)
    fun there hthere => hd here (h.lt_of_mem_tour hmem) there (h.lt_of_mem_unvisited hthere)
  have hnumber : ∀ city ∈ w.unvisited, Scalar.isNaN (value city) = false :=
    fun city hcity => (hvalue city hcity).2 (h.ne_of_mem hmem hcity)
  obtain ⟨there, hthere, hleader, hfirst⟩ := ranks_lt.exists_leader
    (List.ne_nil_of_length_pos (h.unvisited_pos hmore)) h.ascending hnumber
  have hlt := h.lt_of_mem_unvisited hthere
  apply Yields.demand_bind hhere
  apply Yields.eq_bind hsteps
  refine (h.advance_of_distance hhere hleader (hvalue there hthere).1).mono ?_
  rintro w' ⟨hopen, htour⟩
  refine ⟨hopen, here, there, hhere, htour, hlt, (h.mem_unvisited_iff hlt).mp hthere,
    value there, (hvalue there hthere).1, fun city hcity hnew => ?_⟩
  have hahead : city ∈ w.unvisited := (h.mem_unvisited_iff hcity).mpr hnew
  obtain ⟨hunbeaten, hbeats⟩ := hfirst city hahead
  refine ⟨value city, (hvalue city hahead).1, ?_, fun hlower => by simpa using hbeats hlower⟩
  exact ComparableScalar.le_of_not_lt (hnumber there hthere) (hnumber city hahead)
    (by simpa using hunbeaten)

structure Walk.Nearest (d : Distances α) (start : Nat) (w : Walk α) : Prop where
  isOpen : w.Open d
  start : w.tour.head? = some start
  legs : ∀ k, k + 1 < w.tour.length → d.NearestLeg w.tour k

theorem Walk.Nearest.advance (hd : d.Numeric) {start : Nat} (h : w.Nearest d start)
    (hmore : w.tour.length < d.cities) :
    Yields (w.advanceNearest d) fun w' =>
      w'.Nearest d start ∧ w'.tour.length = w.tour.length + 1 := by
  refine (h.isOpen.advanceNearest_nearest hd hmore).mono ?_
  rintro w' ⟨hopen, here, there, hhere, htour, hnearest⟩
  refine ⟨⟨hopen, ?_, ?_⟩, by rw [htour, List.length_append, List.length_singleton]⟩
  · rw [htour, List.head?_append, h.start]
    rfl
  · rw [htour, List.length_append, List.length_singleton]
    intro k hk
    rcases Nat.lt_succ_iff_lt_or_eq.mp hk with hearlier | hlast
    · exact (h.legs k hearlier).append there
    · refine ⟨here, there, ?_, ?_, ?_⟩
      · rw [List.getElem?_append_left (by omega), ← hhere, List.getLast?_eq_getElem?, ← hlast]
        rfl
      · rw [hlast, List.getElem?_concat_length]
      · rwa [hlast, List.take_left]

/-- Every leg up to the return goes to the nearest city outside the tour so far, and the length adds
up the legs in order. -/
theorem Walk.nearestFrom_goes_nearest (hd : d.Numeric) {start : Nat} (hstart : start < d.cities) :
    Yields (nearestFrom d start) fun w =>
      Tour.IsClosed d.cities w.tour ∧ w.tour.head? = some start ∧ w.tour.getLast? = some start ∧
      (∀ k, k + 1 < d.cities → d.NearestLeg w.tour k) ∧
      Tour.travelled d w.tour = .ok w.length := by
  have hplaced : (placed d.cities start).Nearest d start :=
    ⟨placed_open hstart, rfl, fun k hk => absurd hk (by simp [placed])⟩
  simp only [nearestFrom, hstart, if_true]
  refine (Yields.iterate (fun k w => w.Nearest d start ∧ w.tour.length = k + 1) (d.cities - 1)
    ⟨hplaced, rfl⟩ ?_).bind ?_
  · rintro k hk w ⟨hw, hlength⟩
    refine (hw.advance hd (by omega)).mono ?_
    rintro w' ⟨hw', hlength'⟩
    exact ⟨hw', by rw [hlength', hlength]⟩
  · rintro w ⟨hw, hlength⟩
    have hall : w.tour.length = d.cities := by omega
    obtain ⟨here, hhere⟩ := hw.isOpen.exists_current
    have hlt := hw.isOpen.lt_of_mem_tour (List.mem_of_getLast? hhere)
    obtain ⟨step, hstep, -⟩ := hd here hlt start hstart
    refine (hw.isOpen.close_of_distance hall hhere hw.start hstep).mono ?_
    rintro w' ⟨hclosed, htour⟩
    refine ⟨hclosed.tour, ?_, ?_, fun k hk => ?_, hclosed.length_eq⟩
    · rw [htour, List.head?_append, hw.start]
      rfl
    · rw [htour, List.getLast?_concat]
    · rw [htour]
      exact (hw.legs k (hall.symm ▸ hk)).append start

def tiedCities : Distances Float :=
  DistanceTable.toDistances ⟨⟨4, #[0, 3, 3, 1 / 0, 3, 0, 1, 1, 3, 3, 0, 5, 1, -1, 1, 0]⟩⟩

theorem Walk.nearestFrom_goes_nearest_tiedCities :
    ∃ w, tiedCities.Numeric ∧ nearestFrom tiedCities 2 = .ok w ∧ w.tour = [2, 0, 1, 3, 2] ∧
      (∀ k < 3, tiedCities.NearestLeg w.tour k) ∧
      Tour.travelled tiedCities w.tour = .ok w.length := by
  have hnumeric : tiedCities.Numeric := by decide +kernel
  obtain ⟨w, hw, -, -, -, hlegs, hlength⟩ :=
    nearestFrom_goes_nearest hnumeric (by decide : 2 < tiedCities.cities)
  refine ⟨w, hnumeric, hw, ?_, fun k hk => hlegs k (Nat.succ_lt_succ hk), hlength⟩
  have htour : (nearestFrom tiedCities 2).map Walk.tour = .ok [2, 0, 1, 3, 2] := by decide +kernel
  rw [hw] at htour
  exact Except.ok.inj htour

end PopulationSearch
