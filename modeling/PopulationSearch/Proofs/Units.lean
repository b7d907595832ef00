import PopulationSearch.Proofs.RescaledColonies
import PopulationSearch.Proofs.GeneticSearch

/-! The tour searches do not depend on the unit of length. -/

namespace PopulationSearch

variable {K : Type} [Field K] [LinearOrder K] [FloorSemiring K] {γ : Type} {f : K}
  {d : Distances K}

attribute [local instance] Scalar.exact growingSums_exact nonnegativeSums_exact

namespace GeneticSearch

open Genetic

variable {population : List (Chromosome K)}

theorem evaluate_scale {c c' : Chromosome K} (h : c'.genes = c.genes) :
    c'.evaluate (d.scale f) = Chromosome.scale f <$> c.evaluate d := by
  simp [Chromosome.evaluate, h, Tour.cyclicLength_scale, Chromosome.scale, div_eq_mul_inv]

theorem shortest_scale [IsStrictOrderedRing K] (hf : 0 < f) :
    shortest (population.map (Chromosome.scale f)) =
      Chromosome.scale f <$> shortest population := by
  have hleader := leader?_map_scale hf Chromosome.tourLength (h := Chromosome.scale f)
    (fun _ => rfl) population
  simp [shortest, hleader, demand_map]

variable [Source γ K]

theorem selection_scale (hf : f ≠ 0) (amount : Nat) :
    (selection amount (population.map (Chromosome.scale f)) : Draw γ (List (Chromosome K))) =
      List.map (Chromosome.scale f) <$> selection amount population := by
  have hfitness : (population.map (Chromosome.scale f)).map (·.fitness) =
      (population.map (·.fitness)).map (f⁻¹ * ·) := by
    simp [Chromosome.scale, div_eq_inv_mul]
  have hpicks (picks : List Nat) : picks.mapM (fun i =>
        (liftM (demand (population.map (Chromosome.scale f))[i]?) : Draw γ (Chromosome K))) =
      List.map (Chromosome.scale f) <$> picks.mapM fun i => liftM (demand population[i]?) :=
    mapM_comm _ fun i _ => by simp [demand_map]
  rw [selection, hfitness, Wheel.select_map_mul (inv_ne_zero hf), selection, map_bind]
  exact bind_congr hpicks

theorem pairUp_scale (rate : K) (state : Option Nat × List (Chromosome K)) (i : Nat) :
    (pairUp rate (Prod.map id (List.map (Chromosome.scale f)) state) i :
        Draw γ (Option Nat × List (Chromosome K))) =
      Prod.map id (List.map (Chromosome.scale f)) <$> pairUp rate state i := by
  obtain ⟨mate, population⟩ := state
  rw [pairUp, pairUp, map_bind]
  refine bind_congr fun r => ?_
  split
  · simp
  · cases mate with
    | none => simp
    | some mate =>
      simp [demand_map, Chromosome.scale, List.map_set]

theorem crossover_scale (rate : K) :
    (crossover rate (population.map (Chromosome.scale f)) : Draw γ (List (Chromosome K))) =
      List.map (Chromosome.scale f) <$> crossover rate population := by
  have hpairs := foldlM_comm (m := Draw γ) (pairUp_scale (f := f) rate)
    (List.range population.length) (none, population)
  rw [Prod.map_apply, id] at hpairs
  simp [crossover, hpairs]

theorem mutation_scale (rate : K) :
    (mutation rate (population.map (Chromosome.scale f)) : Draw γ (List (Chromosome K))) =
      List.map (Chromosome.scale f) <$> mutation rate population := by
  rw [mutation, List.mapM_map]
  refine mapM_comm _ fun c _ => ?_
  rw [map_bind]
  refine bind_congr fun r => ?_
  split
  · simp [Chromosome.scale]
  · simp

theorem breed_scale (hf : f ≠ 0) (config : Config K) :
    (breed config (population.map (Chromosome.scale f)) : Draw γ (List (Chromosome K))) =
      List.map (Chromosome.scale f) <$> breed config population := by
  simp [breed, selection_scale hf, crossover_scale, mutation_scale]

variable [IsStrictOrderedRing K]

theorem step_scale (hf : 0 < f) (s : GeneticSearch γ K) :
    step (s.scale f) = scale f <$> step s := by
  have hbreed : (breed (s.scale f).config (s.scale f).population : Draw γ (List (Chromosome K))) =
      List.map (Chromosome.scale f) <$> breed s.config s.population :=
    breed_scale hf.ne' s.config
  have hevaluate (bred : List (Chromosome K)) :
      (bred.map (Chromosome.scale f)).mapM (fun c => c.evaluate (s.scale f).distances) =
        List.map (Chromosome.scale f) <$> bred.mapM fun c => c.evaluate s.distances := by
    rw [List.mapM_map]
    exact mapM_comm _ fun c _ => evaluate_scale rfl
  rw [step, hbreed, StateT.run_map, bind_map_left, step, map_bind]
  refine bind_congr fun r => ?_
  dsimp only
  rw [hevaluate, bind_map_left, map_bind]
  refine bind_congr fun population => ?_
  rw [shortest_scale hf, bind_map_left, map_bind]
  refine bind_congr fun c => ?_
  have hprogress :
      ((s.scale f).progress.offer (fun a b => a < b) (Tour.close (c.scale f).genes)
          (c.scale f).tourLength).advance =
        (s.progress.offer (fun a b => a < b) (Tour.close c.genes)
          c.tourLength).advance.scale f := by
    rw [← Progress.advance_scale]
    exact congrArg Progress.advance (Progress.offer_scale hf _ _)
  rw [hprogress]
  rfl

theorem after_scale (hf : 0 < f) (calls : List Call) (k : Nat) (s : GeneticSearch γ K) :
    after calls k (s.scale f) = scale f <$> after calls k s :=
  afterCalls_comm (fun _ => rfl) (fun _ => rfl) (fun _ => rfl) (step_scale hf)
    (fun s => congrArg (fun p => { s.scale f with progress := p }) Progress.finish_scale) calls k s

theorem firstGenes_scale (hf : 0 < f) (greedy others : Nat) :
    (firstGenes (d.scale f) greedy others : Draw γ (List (List Nat))) =
      firstGenes d greedy others := by
  simp [firstGenes, Walk.nearest_scale hf, Walk.scale]

theorem start_scale (hf : 0 < f) {config : Config K} {g : γ} {s : GeneticSearch γ K}
    (h : start d config g = .ok s) : start (d.scale f) config g = .ok (s.scale f) := by
  obtain ⟨_, hconfig, h⟩ := bind_eq_ok.mp h
  obtain ⟨_, hd, h⟩ := bind_eq_ok.mp h
  obtain ⟨⟨genes, g'⟩, hgenes, h⟩ := bind_eq_ok.mp h
  obtain ⟨population, hpopulation, h⟩ := bind_eq_ok.mp h
  obtain ⟨c, hc, h⟩ := bind_eq_ok.mp h
  cases h
  replace hd : d.Sound := d.validate_meets.of_failure.of_eq hd
  rw [liftM_fault_eq_ok] at hc
  have hevaluate : genes.mapM (fun genes =>
      (liftM ((Chromosome.ofGenes genes).evaluate (d.scale f)) :
        Except (Rejection K) (Chromosome K))) = .ok (population.map (Chromosome.scale f)) := by
    rw [mapM_comm (h := Chromosome.scale f) genes (fun genes _ => ?_), hpopulation]
    · rfl
    · rw [evaluate_scale (d := d) (c := Chromosome.ofGenes genes) rfl]
      cases (Chromosome.ofGenes genes).evaluate d <;> rfl
  have hshortest : shortest (population.map (Chromosome.scale f)) = .ok (c.scale f) := by
    rw [shortest_scale hf, hc]
    rfl
  refine bind_eq_ok.mpr ⟨_, hconfig, bind_eq_ok.mpr ⟨(), ?_, bind_eq_ok.mpr ⟨(genes, g'), ?_,
    bind_eq_ok.mpr ⟨_, hevaluate,
      bind_eq_ok.mpr ⟨_, liftM_fault_eq_ok.mpr hshortest, rfl⟩⟩⟩⟩⟩
  · exact congrArg liftM (hd.scale hf).validate_eq_ok
  · rw [firstGenes_scale hf]
    exact hgenes

end GeneticSearch

section Throughout

variable [IsStrictOrderedRing K] [Source γ K] [BoundedIndex γ] {g : γ} (calls : List Call) (k : Nat)

theorem ColonySystem.exists_scaled [Power K] [MultiplicativePowers K] (hf : 0 < f)
    {config : Config K} {c₀ : ColonySystem γ K} (h : start d config g = .ok c₀) :
    ∃ c₀' c, start (d.scale f) config g = .ok c₀' ∧ after calls k c₀ = .ok c ∧
      after calls k c₀' = .ok (c.scale f (Power.power f (-config.beta))) := by
  have hv := MultiplicativePowers.power_pos f (-config.beta) hf
  obtain ⟨c, hafter, -⟩ := after_yields (start_sound h).1 calls k
  refine ⟨_, c, start_scale hf h, hafter, ?_⟩
  rw [after_scale hf hv, hafter]
  rfl

theorem AntSystem.exists_scaled [Power K] [MultiplicativePowers K] (hf : 0 < f)
    {config : Config K} {c₀ : AntSystem γ K} (h : start d config g = .ok c₀) :
    ∃ c₀' c, start (d.scale f) config g = .ok c₀' ∧ after calls k c₀ = .ok c ∧
      after calls k c₀' = .ok (c.scale f (Power.power f (-config.beta))) := by
  have hv := MultiplicativePowers.power_pos f (-config.beta) hf
  obtain ⟨c, hafter, -⟩ := after_yields (start_sound h).1 calls k
  refine ⟨_, c, start_scale hf h, hafter, ?_⟩
  rw [(grounded_of_start h).after_scale hf hv, hafter]
  rfl

theorem GeneticSearch.exists_scaled [FaithfulShuffle γ] (hf : 0 < f)
    {config : Genetic.Config K} {s₀ : GeneticSearch γ K} (h : start d config g = .ok s₀) :
    ∃ s₀' s, start (d.scale f) config g = .ok s₀' ∧ after calls k s₀ = .ok s ∧
      after calls k s₀' = .ok (s.scale f) := by
  obtain ⟨s, hafter, -⟩ := after_yields (start_sound h).1 calls k
  refine ⟨_, s, start_scale hf h, hafter, ?_⟩
  rw [after_scale hf, hafter]
  rfl

/-- On distances multiplied by a positive number the searches travel the same tours, with all
lengths multiplied and all levels and fitness values divided by that number. -/
theorem scaled_throughout [FaithfulShuffle γ] [Power K] [MultiplicativePowers K] (hf : 0 < f) :
    (∀ config c₀, ColonySystem.start d config g = .ok c₀ → ∃ c₀' c,
      ColonySystem.start (d.scale f) config g = .ok c₀' ∧
      ColonySystem.after calls k c₀ = .ok c ∧
      ColonySystem.after calls k c₀' = .ok (c.scale f (Power.power f (-config.beta)))) ∧
    (∀ config c₀, AntSystem.start d config g = .ok c₀ → ∃ c₀' c,
      AntSystem.start (d.scale f) config g = .ok c₀' ∧
      AntSystem.after calls k c₀ = .ok c ∧
      AntSystem.after calls k c₀' = .ok (c.scale f (Power.power f (-config.beta)))) ∧
    (∀ config s₀, GeneticSearch.start d config g = .ok s₀ → ∃ s₀' s,
      GeneticSearch.start (d.scale f) config g = .ok s₀' ∧
      GeneticSearch.after calls k s₀ = .ok s ∧
      GeneticSearch.after calls k s₀' = .ok (s.scale f)) :=
  ⟨fun _ _ => ColonySystem.exists_scaled calls k hf, fun _ _ => AntSystem.exists_scaled calls k hf,
    fun _ _ => GeneticSearch.exists_scaled calls k hf⟩

end Throughout

open ColonySystem (Clock threeCities)

theorem scaled_throughout_threeCities :
    letI := unitPowers ℚ
    ∃ (c₀ : ColonySystem Clock ℚ) (a₀ : AntSystem Clock ℚ) (s₀ : GeneticSearch Clock ℚ),
      ColonySystem.start threeCities ⟨2, 3, 1, 1 / 2, 1 / 10, 1 / 10, 7⟩ ⟨7⟩ = .ok c₀ ∧
      AntSystem.start threeCities ⟨2, 3, 1, 1, 1 / 2, 7⟩ ⟨7⟩ = .ok a₀ ∧
      GeneticSearch.start threeCities ⟨4, 3, 1, 1 / 2, 1 / 2, 7⟩ ⟨7⟩ = .ok s₀ ∧
      (∃ c₀' c, ColonySystem.start (threeCities.scale 2)
          ⟨2, 3, 1, 1 / 2, 1 / 10, 1 / 10, 7⟩ ⟨7⟩ = .ok c₀' ∧
        ColonySystem.after [.run] 2 c₀ = .ok c ∧
        ColonySystem.after [.run] 2 c₀' = .ok (c.scale 2 (1 / 2))) ∧
      (∃ a₀' a, AntSystem.start (threeCities.scale 2) ⟨2, 3, 1, 1, 1 / 2, 7⟩ ⟨7⟩ = .ok a₀' ∧
        AntSystem.after [.run] 2 a₀ = .ok a ∧
        AntSystem.after [.run] 2 a₀' = .ok (a.scale 2 (1 / 2))) ∧
      ∃ s₀' s, GeneticSearch.start (threeCities.scale 2) ⟨4, 3, 1, 1 / 2, 1 / 2, 7⟩ ⟨7⟩ = .ok s₀' ∧
        GeneticSearch.after [.run] 2 s₀ = .ok s ∧
        GeneticSearch.after [.run] 2 s₀' = .ok (s.scale 2) := by
  let := unitPowers ℚ
  have := multiplicativePowers_unit ℚ
  obtain ⟨c₀, hc⟩ : ∃ c₀ : ColonySystem Clock ℚ,
      ColonySystem.start threeCities ⟨2, 3, 1, 1 / 2, 1 / 10, 1 / 10, 7⟩ ⟨7⟩ = .ok c₀ :=
    exists_eq_ok (by decide +kernel)
  obtain ⟨a₀, ha⟩ : ∃ a₀ : AntSystem Clock ℚ,
      AntSystem.start threeCities ⟨2, 3, 1, 1, 1 / 2, 7⟩ ⟨7⟩ = .ok a₀ :=
    exists_eq_ok (by decide +kernel)
  obtain ⟨s₀, hs⟩ : ∃ s₀ : GeneticSearch Clock ℚ,
      GeneticSearch.start threeCities ⟨4, 3, 1, 1 / 2, 1 / 2, 7⟩ ⟨7⟩ = .ok s₀ :=
    exists_eq_ok (by decide +kernel)
  obtain ⟨hcolony, hants, hgenes⟩ :=
    scaled_throughout (f := 2) (d := threeCities) (g := (⟨7⟩ : Clock)) [.run] 2 two_pos
  have hvisible : (1 : ℚ) / 2 = Power.power 2 (-1) := by decide +kernel
  rw [hvisible]
  exact ⟨c₀, a₀, s₀, hc, ha, hs, hcolony _ _ hc, hants _ _ ha, hgenes _ _ hs⟩

end PopulationSearch
