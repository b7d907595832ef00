import PopulationSearch.Proofs.Breeding
import PopulationSearch.Proofs.Calls
import PopulationSearch.Proofs.Progress
import PopulationSearch.Proofs.Rejections

/-! Genetic runs. A generation evaluates all that it has bred, so nothing stale is left. -/

namespace PopulationSearch

variable {γ α : Type} [Scalar α] [Source γ α]

structure Best.Cyclic (d : Distances α) (b : Best (List Nat) α) : Prop where
  closed : Tour.IsClosed d.cities b.solution
  length_eq : Tour.cyclicLength d (b.solution.take d.cities) = .ok b.quality

namespace GeneticSearch

open Genetic

omit [Source γ α] in
theorem cyclic_of_evaluated {d : Distances α} (hd : d.Sound) {c : Chromosome α}
    (h : c.Evaluated d) : Best.Cyclic d ⟨Tour.close c.genes, c.tourLength⟩ := by
  constructor
  · exact Tour.isClosed_close hd.cities_pos h.perm
  · dsimp only
    rw [Tour.take_close (Tour.length_of_perm h.perm), h.length_eq]

/-- What is promised of a search between generations. -/
structure Consistent (s : GeneticSearch γ α) : Prop where
  length_population : s.population.length = s.config.populationSize
  evaluated : ∀ c ∈ s.population, c.Evaluated s.distances
  best : s.progress.best.Cyclic s.distances
  recorded : s.progress.Recorded

structure Sound (s : GeneticSearch γ α) : Prop extends Consistent s where
  distances : s.distances.Sound
  populated : 0 < s.config.populationSize

variable {s : GeneticSearch γ α}

theorem start_meets [BoundedIndex γ] [FaithfulShuffle γ] (d : Distances α) (config : Config α)
    (g : γ) : Meets (start d config g)
      (fun s => s.Sound ∧ s.distances = d ∧ s.config = config) (Rejection.Blames d.Fails) := by
  refine (Requirement.configured_meets config.validate).of_failure.bind fun _ hconfig => ?_
  refine d.validate_meets.of_failure.bind fun _ hd => ?_
  obtain ⟨_, hsize, -⟩ := bind_eq_ok.mp hconfig
  have htwo : 2 ≤ config.populationSize := Requirement.atLeast_eq_ok.mp hsize
  have hgreedy : config.greedyCount ≤ config.populationSize := Nat.min_le_right _ _
  have hfirst := firstGenes_yields hd config.greedyCount
    (config.populationSize - config.greedyCount) (γ := γ)
  refine (Meets.of_yields (hfirst g)).reject.bind ?_
  rintro ⟨genes, g'⟩ ⟨hlen, hperm⟩
  rw [Nat.add_sub_cancel' hgreedy] at hlen
  refine (Meets.mapM genes fun genes hgenes => (Meets.of_yields
    (Chromosome.evaluate_yields hd (hperm genes hgenes))).reject).bind ?_
  intro population hpopulation
  have hcount : population.length = config.populationSize := hpopulation.length_eq.symm.trans hlen
  have hmembers : ∀ c ∈ population, c.Evaluated d :=
    forall_mem_of_forall₂ hpopulation fun _ _ hc => hc
  have hne : population ≠ [] := List.ne_nil_of_length_pos (by omega)
  refine (Meets.of_yields (shortest_yields hne)).reject.bind fun c hc => .pure ?_
  exact ⟨⟨⟨hcount, hmembers, cyclic_of_evaluated hd (hmembers c hc), Progress.recorded_start _ _⟩,
    hd, Nat.zero_lt_of_lt htwo⟩, rfl, rfl⟩

theorem start_sound [BoundedIndex γ] [FaithfulShuffle γ] {d : Distances α} {config : Config α}
    {g : γ} (h : start d config g = .ok s) :
    s.Sound ∧ s.distances = d ∧ s.config = config := (start_meets d config g).of_eq h

structure Continues (s s' : GeneticSearch γ α) : Prop where
  sound : s'.Sound
  distances : s'.distances = s.distances
  config : s'.config = s.config

omit [Source γ α] in
theorem Continues.trans {s' s'' : GeneticSearch γ α} (h : s.Continues s')
    (h' : s'.Continues s'') : s.Continues s'' where
  sound := h'.sound
  distances := h'.distances.trans h.distances
  config := h'.config.trans h.config

theorem step_yields [BoundedIndex γ] (hs : s.Sound) : Yields (step s) s.Continues := by
  have hn : 0 < s.distances.cities := hs.distances.cities_pos
  have hold : Bred s.distances.cities s.config.populationSize s.population :=
    ⟨hs.length_population, fun c hc => (hs.evaluated c hc).perm⟩
  obtain ⟨⟨bred, g⟩, hbreed, hbred⟩ := breed_yields hn s.config hold hs.populated s.source
  obtain ⟨population, hevaluate, hlen, hmembers⟩ := evaluated_yields hs.distances hbred
  have hne : population ≠ [] := List.ne_nil_of_length_pos (hlen.symm ▸ hs.populated)
  obtain ⟨c, hshortest, hc⟩ := shortest_yields hne
  apply Yields.eq_bind hbreed
  apply Yields.eq_bind hevaluate
  apply Yields.eq_bind hshortest
  have hbest : (s.progress.best.offer (fun a b => a < b) (Tour.close c.genes)
      c.tourLength).Cyclic s.distances :=
    Best.offer_of hs.best _ (cyclic_of_evaluated hs.distances (hmembers c hc))
  have hrecorded := hs.recorded.offer_advance (fun a b => a < b) (Tour.close c.genes) c.tourLength
  exact .pure ⟨⟨⟨hlen, hmembers, hbest, hrecorded⟩, hs.distances, hs.populated⟩, rfl, rfl⟩

def finished (s : GeneticSearch γ α) : GeneticSearch γ α :=
  { s with progress := s.progress.finish }

def after (calls : List Call) (k : Nat) (s : GeneticSearch γ α) :
    Except Fault (GeneticSearch γ α) := do
  let s ← afterCalls step run calls s
  iterate k step s

theorem after_yields [BoundedIndex γ] (hs : s.Sound) (calls : List Call) (k : Nat) :
    Yields (after calls k s) s.Continues := by
  have hstep : ∀ s', s.Continues s' → Yields (step s') s.Continues := fun s' h =>
    (step_yields h.sound).mono fun s'' h' => h.trans h'
  have hfinish : ∀ s', s.Continues s' → s.Continues (finished s') := fun s' h =>
    ⟨{ h.sound with recorded := { h.sound.recorded with } }, h.distances, h.config⟩
  exact afterCalls_keeps (fun _ => rfl) _ hstep hfinish calls k ⟨hs, rfl, rfl⟩

/-- From an accepted start, any calls and generations lead to a search that is consistent. -/
theorem consistent_throughout [BoundedIndex γ] [FaithfulShuffle γ] {d : Distances α}
    {config : Config α} {g : γ} {s₀ : GeneticSearch γ α} (hstart : start d config g = .ok s₀)
    (calls : List Call) (k : Nat) :
    ∃ s, after calls k s₀ = .ok s ∧ s.distances = d ∧ s.config = config ∧ s.Consistent := by
  obtain ⟨hs, hd, hconfig⟩ := start_sound hstart
  obtain ⟨s, hafter, h⟩ := after_yields hs calls k
  exact ⟨s, hafter, h.distances.trans hd, h.config.trans hconfig, h.sound.toConsistent⟩

theorem consistent_throughout_fourCities :
    ∃ s₀ : GeneticSearch Generator Float,
      start fourCities ⟨6, 2, 0.9, 0.5, 0.3, 42⟩ (Generator.ofSeed 42) = .ok s₀ ∧
      ∃ s, after [.run, .step] 2 s₀ = .ok s ∧ s.Consistent := by
  obtain ⟨s₀, hstart⟩ : ∃ s₀ : GeneticSearch Generator Float,
      start fourCities ⟨6, 2, 0.9, 0.5, 0.3, 42⟩ (Generator.ofSeed 42) = .ok s₀ :=
    exists_eq_ok (by decide +kernel)
  obtain ⟨s, hafter, -, -, hs⟩ := consistent_throughout hstart [.run, .step] 2
  exact ⟨s₀, hstart, s, hafter, hs⟩

end GeneticSearch
end PopulationSearch
