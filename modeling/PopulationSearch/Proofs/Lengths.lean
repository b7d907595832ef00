import PopulationSearch.Proofs.Arithmetic
import PopulationSearch.Proofs.Walk

/-! Every leg of a tour takes a positive step, so its length is positive if sums grow. -/

namespace PopulationSearch

variable {α : Type} [Scalar α] {d : Distances α}

def Distances.Spans (d : Distances α) (leg : Nat × Nat) : Prop :=
  leg.1 < d.cities ∧ leg.2 < d.cities ∧ leg.1 ≠ leg.2

theorem Tour.IsClosed.spans (hd : d.Sound) {tour : List Nat} (h : IsClosed d.cities tour)
    {leg : Nat × Nat} (hleg : leg ∈ legs tour) : d.Spans leg := by
  obtain ⟨hi, hj⟩ := mem_of_mem_legs hleg
  exact ⟨h.lt_of_mem hd.cities_pos hi, h.lt_of_mem hd.cities_pos hj,
    h.ne_of_mem_legs hd.two_le hleg⟩

theorem Distances.Sound.zero_lt (hd : d.Sound) {leg : Nat × Nat} {step : α} (hleg : d.Spans leg)
    (h : d.distance leg.1 leg.2 = .ok step) : 0 < step :=
  ((hd.edge _ hleg.1 _ hleg.2.1 hleg.2.2).of_eq h).1

omit [Scalar α] in
theorem Distances.exists_leg_of_mapM {legs : List (Nat × Nat)} {steps : List α}
    (hlegs : ∀ leg ∈ legs, d.Spans leg)
    (h : legs.mapM (fun leg => d.distance leg.1 leg.2) = .ok steps) :
    ∀ step ∈ steps, ∃ leg, d.Spans leg ∧ d.distance leg.1 leg.2 = .ok step :=
  forall_mem_of_forall₂ ((List.forall₂_and_left _ _).mpr ⟨hlegs, forall₂_of_mapM_eq_ok h⟩)
    fun leg _ hleg => ⟨leg, hleg⟩

theorem Distances.Sound.zero_lt_of_mapM (hd : d.Sound) {legs : List (Nat × Nat)} {steps : List α}
    (hlegs : ∀ leg ∈ legs, d.Spans leg)
    (h : legs.mapM (fun leg => d.distance leg.1 leg.2) = .ok steps) : ∀ step ∈ steps, 0 < step := by
  intro step hstep
  obtain ⟨leg, hleg, hdistance⟩ := exists_leg_of_mapM hlegs h step hstep
  exact hd.zero_lt hleg hdistance

variable [NonnegativeSums α]

theorem zero_le_foldl_add_of_zero_lt {l : List α} {first : α} (hfirst : 0 ≤ first)
    (hl : ∀ a ∈ l, 0 < a) : 0 ≤ l.foldl (· + ·) first :=
  zero_le_foldl_add hfirst fun a ha => NonnegativeSums.zero_le_of_lt a (hl a ha)

theorem Tour.IsClosed.exists_leg_le [GrowingSums α] (hd : d.Sound) {tour : List Nat} {length : α}
    (h : IsClosed d.cities tour) (hlength : travelled d tour = .ok length) :
    ∃ leg, d.Spans leg ∧ ∃ step, d.distance leg.1 leg.2 = .ok step ∧ step ≤ length := by
  obtain ⟨steps, hsteps, hsum⟩ := bind_eq_ok.mp hlength
  have hlegs : ∀ leg ∈ legs tour, d.Spans leg := fun leg => h.spans hd
  have hcount : 0 < steps.length := by
    rw [← (forall₂_of_mapM_eq_ok hsteps).length_eq, length_legs, h.length_eq]
    exact hd.cities_pos
  obtain ⟨step, hmem⟩ := List.exists_mem_of_length_pos hcount
  obtain ⟨leg, hleg, hstep⟩ := Distances.exists_leg_of_mapM hlegs hsteps step hmem
  have hnonneg : ∀ step ∈ steps, 0 ≤ step := fun step hstep =>
    NonnegativeSums.zero_le_of_lt step (hd.zero_lt_of_mapM hlegs hsteps step hstep)
  rw [← Except.ok.inj hsum]
  exact ⟨leg, hleg, step, hstep, le_foldl_add_of_mem NonnegativeSums.zero_le_zero hnonneg hmem⟩

theorem Tour.IsClosed.zero_lt_travelled [GrowingSums α] (hd : d.Sound) {tour : List Nat}
    {length : α} (h : IsClosed d.cities tour) (hlength : travelled d tour = .ok length) :
    0 < length := by
  obtain ⟨leg, hleg, step, hstep, hle⟩ := h.exists_leg_le hd hlength
  exact ComparableScalar.lt_of_lt_of_le (hd.zero_lt hleg hstep) hle

theorem Walk.Closed.isNaN_length (hd : d.Sound) {w : Walk α} (h : w.Closed d) :
    Scalar.isNaN w.length = false := by
  obtain ⟨steps, hsteps, hsum⟩ := bind_eq_ok.mp h.length_eq
  have hpos := hd.zero_lt_of_mapM (fun leg => h.tour.spans hd) hsteps
  rw [← Except.ok.inj hsum]
  exact NonnegativeSums.isNaN_of_zero_le _
    (zero_le_foldl_add_of_zero_lt NonnegativeSums.zero_le_zero hpos)

theorem Walk.Closed.zero_lt_length [GrowingSums α] (hd : d.Sound) {w : Walk α} (h : w.Closed d) :
    0 < w.length := h.tour.zero_lt_travelled hd h.length_eq

end PopulationSearch
