import PopulationSearch.Proofs.DoubleLaws
import PopulationSearch.Proofs.GivenUp
import PopulationSearch.Proofs.Lengths

/-! What a generation of the Ant System does to the trail. -/

namespace PopulationSearch.AntSystem

variable {γ α : Type} [Scalar α] {c c' : AntSystem γ α}

/-- What a generation that is not given up makes of every level, by its own tours. -/
structure DepositLaw (c c' : AntSystem γ α) : Prop where
  closed : ∀ ant ∈ c'.ants, ant.Closed c.distances
  level : ∀ i < c.distances.cities, ∀ j < c.distances.cities, ∃ level,
    c.pheromone.get i j = .ok level ∧ c'.pheromone.get i j =
      .ok (renewed c.config.rho c.initialTrail c'.ants (i, j) level)

structure Floored (c : AntSystem γ α) : Prop where
  zero_le : 0 ≤ c.initialTrail
  level : ∀ i < c.distances.cities, ∀ j < c.distances.cities, ∃ level,
    c.pheromone.get i j = .ok level ∧ c.initialTrail ≤ level

section Growth

variable [GrowingSums α] {trail level : α}

theorem le_raised (htrail : 0 ≤ trail) (h : trail ≤ level) {ant : Walk α}
    (hant : 0 ≤ 1 / ant.length) (leg : Nat × Nat) : trail ≤ raised leg level ant := by
  rw [raised, Pheromone.onLegs_eq]
  split
  case isTrue =>
    have hlevel : 0 ≤ level := ComparableScalar.le_trans htrail h
    exact ComparableScalar.le_trans h (GrowingSums.le_add_right _ _ hlevel hant)
  case isFalse => exact h

theorem le_foldl_raised (htrail : 0 ≤ trail) (h : trail ≤ level) {ants : List (Walk α)}
    (hants : ∀ ant ∈ ants, 0 ≤ 1 / ant.length) (leg : Nat × Nat) :
    trail ≤ ants.foldl (raised leg) level := by
  induction ants generalizing level with
  | nil => exact h
  | cons ant ants ih =>
    obtain ⟨hant, hants⟩ := List.forall_mem_cons.mp hants
    exact ih (le_raised htrail h hant leg) hants

variable [NonnegativeSums α]

theorem DepositLaw.floored (hlaw : DepositLaw c c') (hc : c.Sound) (htask : c.SameTask c')
    (htrail : 0 ≤ c.initialTrail) : Floored c' := by
  have hdeposits : ∀ ant ∈ c'.ants, 0 ≤ 1 / ant.length := fun ant hant =>
    GrowingSums.zero_le_one_div _ ((hlaw.closed ant hant).zero_lt_length hc.distances)
  constructor
  case zero_le => rwa [htask.initialTrail]
  case level =>
    rw [htask.distances, htask.initialTrail]
    intro i hi j hj
    obtain ⟨level, -, hlevel⟩ := hlaw.level i hi j hj
    have hdecayed : c.initialTrail ≤
        Scalar.larger ((1 - c.config.rho) * level) c.initialTrail :=
      ComparableScalar.le_larger (ComparableScalar.isNaN_right htrail)
    exact ⟨_, hlevel, le_foldl_raised htrail hdecayed hdeposits (i, j)⟩

theorem floored_of_start [Power α] [Source γ α] [BoundedIndex γ] {d : Distances α}
    {config : Config α} {g : γ} (h : start d config g = .ok c)
    (hants : config.numAnts < UInt64.size) : Floored c := by
  obtain ⟨hc, rfl, -⟩ := start_sound h
  obtain ⟨walk, g', -, hseeded⟩ := start_seed h
  have hlength := hseeded.closed.zero_lt_length hc.distances
  have hpos : 0 ≤ c.initialTrail := by
    rw [hseeded.initialTrail]
    exact GrowingSums.zero_le_count_div _ _ hants hlength
  refine ⟨hpos, fun i hi j hj => ⟨c.initialTrail, ?_, ?_⟩⟩
  · rw [hseeded.pheromone, Grid.get_uniform _ hi hj]
  · exact ComparableScalar.le_refl (ComparableScalar.isNaN_right hpos)

end Growth

variable [Power α] [Source γ α]

theorem Floored.of_performAll (h : Floored c) {acts : List Act}
    {r : AntSystem γ α × Option (Error α)} (hr : performAll acts c = .ok r) : Floored r.1 := by
  rw [unchanged_of_performAll hr]
  exact { h with }

variable [BoundedIndex γ]

theorem depositLaw_of_step (hc : c.Sound) (h : step c = .ok (c', none)) : DepositLaw c c' := by
  have hclosed := ((step_yields hc).of_eq h).2.2 rfl
  obtain ⟨⟨c₁, _ | e⟩, hperformed, h⟩ := bind_eq_ok.mp h
  case some => cases h
  obtain ⟨c₂, hoffer, h⟩ := bind_eq_ok.mp h
  obtain ⟨_, _, -, rfl⟩ := Colony.offerLeader_eq_ok hoffer
  obtain ⟨c₃, hrenew, h⟩ := bind_eq_ok.mp h
  obtain ⟨p, hp, hrenew⟩ := bind_eq_ok.mp hrenew
  cases hrenew
  cases h
  have hsame : c₁ = { c with ants := c₁.ants, source := c₁.source } :=
    unchanged_of_performAll hperformed
  rw [hsame] at hp
  obtain ⟨-, hlevels⟩ := (deposits_yields hc.distances.cities_pos (hc.pheromone.map _)
    fun ant hant => (hclosed ant hant).tour).of_eq hp
  refine ⟨hclosed, fun i hi j hj => ?_⟩
  obtain ⟨level, hlevel, -⟩ := hc.pheromone.get_yields hi hj
  refine ⟨level, hlevel, ?_⟩
  rw [hlevels i hi j hj, Grid.get_map, hlevel]
  rfl

theorem Floored.step [NonnegativeSums α] [GrowingSums α] (h : Floored c) (hc : c.Sound) :
    Yields (step c) fun r => c.Continues r.1 ∧ Floored r.1 := by
  obtain ⟨⟨c', e⟩, hstep, hcontinues, -⟩ := step_yields hc
  refine ⟨_, hstep, hcontinues, ?_⟩
  cases e with
  | none => exact (depositLaw_of_step hc hstep).floored hc hcontinues.task h.zero_le
  | some e =>
    rw [(givenUp_of_step hc hstep).unchanged]
    exact { h with }

theorem Floored.after [NonnegativeSums α] [GrowingSums α] (h : Floored c) (hc : c.Sound)
    (calls : List Call) (k : Nat) :
    Yields (after calls k c) fun c' => c.Continues c' ∧ Floored c' := by
  apply after_keeps _ _ calls k ⟨hc.continues, h⟩
  · rintro c' ⟨hcontinues, hfloored⟩
    refine (hfloored.step hcontinues.sound).mono fun r h' => ?_
    exact ⟨hcontinues.trans h'.1, h'.2⟩
  · rintro c' ⟨hcontinues, hfloored⟩
    exact ⟨⟨{ hcontinues.sound with }, { hcontinues.task with }⟩, { hfloored with }⟩

/-- A generation that is not given up changes the levels by what its own ants travel alone. If sums
grow, no level is ever below the initial trail. -/
theorem deposit_law {d : Distances α} {config : Config α} {g : γ} {c₀ : AntSystem γ α}
    (hstart : start d config g = .ok c₀) (calls : List Call) (k : Nat) :
    ∃ c, after calls k c₀ = .ok c ∧ c.distances = d ∧ c.initialTrail = c₀.initialTrail ∧
      (∀ c', step c = .ok (c', none) → DepositLaw c c') ∧
      (∀ ants, ants.length = c.ants.length → step { c with ants := ants } = step c) ∧
      (∀ [NonnegativeSums α] [GrowingSums α], config.numAnts < UInt64.size →
        Floored c ∧ ∀ acts r, performAll acts c = .ok r → Floored r.1) := by
  obtain ⟨hc₀, rfl, -⟩ := start_sound hstart
  obtain ⟨c, hafter, hc, htask⟩ := after_yields hc₀ calls k
  refine ⟨c, hafter, htask.distances, htask.initialTrail, fun c' => depositLaw_of_step hc,
    fun ants => step_with_ants, ?_⟩
  intro _ _ hants
  obtain ⟨-, hfloored⟩ := ((floored_of_start hstart hants).after hc₀ calls k).of_eq hafter
  exact ⟨hfloored, fun acts r => hfloored.of_performAll⟩

theorem deposit_law_fourCities :
    letI := unitPower
    ∃ c₀ c c' : AntSystem Generator Float,
      start fourCities ⟨2, 3, 1, 1, 0.5, 7⟩ (Generator.ofSeed 7) = .ok c₀ ∧
      after [.step, .run] 1 c₀ = .ok c ∧ Floored c ∧ step c = .ok (c', none) ∧
      DepositLaw c c' := by
  let := unitPower
  have hcompletes : (start fourCities ⟨2, 3, 1, 1, 0.5, 7⟩ (Generator.ofSeed 7) :
      Except (Rejection Float) (AntSystem Generator Float)).toOption.any (fun c₀ =>
        (after [.step, .run] 1 c₀).toOption.any fun c =>
          (step c).toOption.any fun r => r.2.isNone) = true := by decide +kernel
  obtain ⟨c₀, hstart⟩ : ∃ c₀ : AntSystem Generator Float,
      start fourCities ⟨2, 3, 1, 1, 0.5, 7⟩ (Generator.ofSeed 7) = .ok c₀ :=
    exists_eq_ok (by decide +kernel)
  obtain ⟨c, hafter, -, -, hlaw, -, hfloor⟩ := deposit_law hstart [.step, .run] 1
  obtain ⟨hfloored, -⟩ := hfloor (by decide)
  simp only [hstart, hafter, Except.toOption, Option.any_some] at hcompletes
  rcases hstep : step c with f | ⟨c', e⟩
  · rw [hstep] at hcompletes
    cases hcompletes
  · simp only [hstep, Option.any_some, Option.isNone_iff_eq_none] at hcompletes
    subst hcompletes
    exact ⟨c₀, c, c', hstart, hafter, hfloored, hstep, hlaw c' hstep⟩

end PopulationSearch.AntSystem
