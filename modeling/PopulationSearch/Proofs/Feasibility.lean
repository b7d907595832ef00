import PopulationSearch.Proofs.AntSystem
import PopulationSearch.Proofs.ColonySystem

/-! Ants stay feasible, inside generations and after one that was given up. -/

namespace PopulationSearch

variable {γ α : Type} [Scalar α] [Source γ α] [BoundedIndex γ]

namespace ColonySystem

variable {c : ColonySystem γ α}

theorem inStep_of_beginning (hc : c.Sound) {acts : List Act}
    (hacts : acts <+: schedule c.distances.cities c.ants.length) :
    Yields (acts.foldlM perform c) fun c' => c'.Feasible ∧
      c.InStep (fun k => .place k ∈ acts) (fun k => .close k ∈ acts) c' := by
  have hn : 0 < c.distances.cities := hc.distances.cities_pos
  have htable := timetable hn c.ants.length
  refine (underway_of_beginning hc hacts).mono fun c' h => ⟨h.feasible hc, h.inStep ?_ ?_⟩
  · intro k hk
    refine (htable.mem_iff hacts (a := .place k) hk).trans ?_
    simp only [Act.ant, eq_place_iff, exists_eq_right]
    rw [errands]
    split <;> omega
  · intro k hk
    refine (htable.mem_iff hacts (a := .close k) hk).trans ?_
    simp only [Act.ant, eq_close_iff hn, exists_eq_right]
    rw [errands]
    split <;> omega

end ColonySystem

namespace AntSystem

variable [Power α] {c : AntSystem γ α}

theorem inStep_of_beginning (hc : c.Sound) {acts : List Act}
    (hacts : acts <+: schedule c.distances.cities c.ants.length) :
    Yields (performAll acts c) fun r => r.1.Feasible ∧ ∃ done, done <+: acts ∧
      (r.2 = none → done = acts) ∧
      c.InStep (fun k => .place k ∈ done) (fun k => .close k ∈ done) r.1 := by
  have hn : 0 < c.distances.cities := hc.distances.cities_pos
  have htable := timetable hn c.ants.length
  refine (underway_of_beginning hc hacts).mono ?_
  rintro r ⟨done, hhalt, h⟩
  have hpre := hhalt.performed.trans hacts
  refine ⟨h.feasible hc, done, hhalt.performed, hhalt.complete, h.inStep ?_ ?_⟩
  · intro k hk
    refine (htable.mem_iff hpre (a := .place k) hk).trans ?_
    simp only [Act.ant, eq_place_iff, exists_eq_right]
  · intro k hk
    refine (htable.mem_iff hpre (a := .close k) hk).trans ?_
    simp only [Act.ant, eq_close_iff hn, exists_eq_right]

end AntSystem

/-- Both colonies reach every state without a fault, and each ant is where its acts of the current
generation have taken it. -/
theorem feasible_throughout [Power α] (d : Distances α) (g : γ) (calls : List Call) (k : Nat) :
    (∀ config c₀, ColonySystem.start d config g = .ok c₀ →
      ∃ c, ColonySystem.after calls k c₀ = .ok c ∧ c.Feasible ∧ c.distances = d ∧
        c.ants.length = config.numAnts ∧
        (∀ acts, acts <+: ColonySystem.schedule d.cities config.numAnts →
          ∃ c', acts.foldlM ColonySystem.perform c = .ok c' ∧ c'.Feasible ∧
            c.InStep (fun i => .place i ∈ acts) (fun i => .close i ∈ acts) c') ∧
        ∃ c', ColonySystem.step c = .ok c' ∧ c'.Feasible ∧ ∀ ant ∈ c'.ants, ant.Closed d) ∧
    (∀ config c₀, AntSystem.start d config g = .ok c₀ →
      ∃ c, AntSystem.after calls k c₀ = .ok c ∧ c.Feasible ∧ c.distances = d ∧
        c.ants.length = config.numAnts ∧
        (∀ acts, acts <+: AntSystem.schedule d.cities config.numAnts →
          ∃ c' e, AntSystem.performAll acts c = .ok (c', e) ∧ c'.Feasible ∧
            ∃ done, done <+: acts ∧ (e = none → done = acts) ∧
              c.InStep (fun i => .place i ∈ done) (fun i => .close i ∈ done) c') ∧
        ∃ c' e, AntSystem.step c = .ok (c', e) ∧ c'.Feasible ∧
          (∀ ant ∈ c'.ants, ant.Open d ∨ ant.Closed d) ∧
          (e = none → ∀ ant ∈ c'.ants, ant.Closed d)) := by
  constructor
  · intro config c₀ hstart
    obtain ⟨hsound, rfl, -, hlen⟩ := ColonySystem.start_sound hstart
    obtain ⟨c, hafter, hc, htask⟩ := ColonySystem.after_yields hsound calls k
    have hants := htask.length_ants.trans hlen
    refine ⟨c, hafter, hc.toFeasible, htask.distances, hants, fun acts hacts => ?_, ?_⟩
    · rw [← htask.distances, ← hants] at hacts
      exact ColonySystem.inStep_of_beginning hc hacts
    · obtain ⟨c', hstep, ⟨hc', -⟩, hclosed, -⟩ := ColonySystem.step_yields hc
      exact ⟨c', hstep, hc'.toFeasible, htask.distances ▸ hclosed⟩
  · intro config c₀ hstart
    obtain ⟨hsound, rfl, -, hlen⟩ := AntSystem.start_sound hstart
    obtain ⟨c, hafter, hc, htask⟩ := AntSystem.after_yields hsound calls k
    have hants := htask.length_ants.trans hlen
    refine ⟨c, hafter, hc.toFeasible, htask.distances, hants, fun acts hacts => ?_, ?_⟩
    · rw [← htask.distances, ← hants] at hacts
      obtain ⟨⟨c', e⟩, hperform, hfeasible, hdone⟩ := AntSystem.inStep_of_beginning hc hacts
      exact ⟨c', e, hperform, hfeasible, hdone⟩
    · obtain ⟨⟨c', e⟩, hstep, ⟨hc', -⟩, hplaced, hclosed⟩ := AntSystem.step_yields hc
      rw [htask.distances] at hplaced hclosed
      exact ⟨c', e, hstep, hc'.toFeasible, hplaced, hclosed⟩

def farCities : Distances Float :=
  DistanceTable.toDistances ⟨⟨3, #[0, 1e200, 2e200, 1e200, 0, 4e200, 2e200, 4e200, 0]⟩⟩

theorem feasible_throughout_farCities :
    letI := unitPower
    (∃ c₀ : ColonySystem Generator Float,
      ColonySystem.start farCities ⟨2, 3, 1, 0.5, 0.1, 0.1, 7⟩ (Generator.ofSeed 7) = .ok c₀ ∧
      ∃ c, ColonySystem.after [.step, .run] 1 c₀ = .ok c ∧ c.Feasible ∧
        ∃ c', ColonySystem.step c = .ok c' ∧ ∀ ant ∈ c'.ants, ant.Closed farCities) ∧
    (∃ c₀ : AntSystem Generator Float,
      AntSystem.start farCities ⟨2, 3, 1, 1, 0.5, 7⟩ (Generator.ofSeed 7) = .ok c₀ ∧
      ∃ c, AntSystem.after [.step, .run] 1 c₀ = .ok c ∧ c.Feasible ∧
        ∃ c' e, AntSystem.step c = .ok (c', e) ∧ c'.Feasible) := by
  let := unitPower
  have hall := feasible_throughout farCities (Generator.ofSeed 7) [.step, .run] 1
  constructor
  · obtain ⟨c₀, hstart⟩ : ∃ c₀ : ColonySystem Generator Float, ColonySystem.start farCities
        ⟨2, 3, 1, 0.5, 0.1, 0.1, 7⟩ (Generator.ofSeed 7) = .ok c₀ :=
      exists_eq_ok (by decide +kernel)
    obtain ⟨c, hafter, hc, -, -, -, c', hstep, -, hclosed⟩ := hall.1 _ c₀ hstart
    exact ⟨c₀, hstart, c, hafter, hc, c', hstep, hclosed⟩
  · obtain ⟨c₀, hstart⟩ : ∃ c₀ : AntSystem Generator Float, AntSystem.start farCities
        ⟨2, 3, 1, 1, 0.5, 7⟩ (Generator.ofSeed 7) = .ok c₀ :=
      exists_eq_ok (by decide +kernel)
    obtain ⟨c, hafter, hc, -, -, -, c', e, hstep, hc', -⟩ := hall.2 _ c₀ hstart
    exact ⟨c₀, hstart, c, hafter, hc, c', e, hstep, hc'⟩

end PopulationSearch
