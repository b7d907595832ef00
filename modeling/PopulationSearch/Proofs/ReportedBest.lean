import PopulationSearch.Proofs.DoubleLaws
import PopulationSearch.Proofs.TourOptimum
import PopulationSearch.Proofs.VectorOptimum

/-! What every search reports is the quality of a candidate that no other one beats. -/

namespace PopulationSearch

variable {γ α : Type} [Scalar α] [Power α] [Source γ α]

/-- The batches are the tours of the ants, the populations of a genetic search, the trials, or the
positions of the particles. -/
theorem optimal_throughout [OrderedScalar α] [NonnegativeSums α] [BoundedIndex γ]
    [FaithfulShuffle γ] (d : Distances α) (objective : Objective α) (g : γ) (calls : List Call)
    (k : Nat) :
    (∀ config c₀, ColonySystem.start d config g = .ok c₀ →
      ∃ walk g', (Walk.nearest d).run g = .ok (walk, g') ∧
      ∃ c batches, ColonySystem.after calls k c₀ = .ok c ∧
        Course ColonySystem.Evaluates ColonySystem.finished c₀ batches c ∧
        c.progress.Optimal (fun a b => a < b) ([walk.candidate] :: batches) ∧
        c.progress.Nonworsening fun a b => a < b) ∧
    (∀ config c₀ c, AntSystem.start d config g = .ok c₀ →
      AntSystem.afterUnrefused calls k c₀ = .ok c →
      AntSystem.after calls k c₀ = .ok c ∧
      ∃ walk g', (Walk.nearest d).run g = .ok (walk, g') ∧
      ∃ batches, Course AntSystem.Evaluates AntSystem.finished c₀ batches c ∧
        c.progress.Optimal (fun a b => a < b) ([walk.candidate] :: batches) ∧
        c.progress.Nonworsening fun a b => a < b) ∧
    (∀ config s₀, GeneticSearch.start d config g = .ok s₀ →
      ∃ s batches, GeneticSearch.after calls k s₀ = .ok s ∧
        Course GeneticSearch.Evaluates GeneticSearch.finished s₀ batches s ∧
        s.progress.Optimal (fun a b => a < b) (s₀.candidates :: batches) ∧
        s.progress.Nonworsening fun a b => a < b) ∧
    ([FiniteArithmetic α] → [UniformDraws γ] → [DistinctSamples γ] → objective.Ordinary →
      ∀ config s₀ s, DifferentialSearch.start objective config g = .ok s₀ →
      DifferentialSearch.after calls k s₀ = .ok s →
      ∃ batches, Course DifferentialSearch.Evaluates DifferentialSearch.finished s₀ batches s ∧
        s.progress.Optimal objective.isFitter (s₀.standing.slots :: batches) ∧
        s.progress.Nonworsening objective.isFitter) ∧
    ([FiniteArithmetic α] → [UniformDraws γ] → objective.Ordinary →
      ∀ config s₀ s, SwarmSearch.start objective config g = .ok s₀ →
      SwarmSearch.after calls k s₀ = .ok s →
      ∃ batches, Course SwarmSearch.Evaluates SwarmSearch.finished s₀ batches s ∧
        s.progress.Optimal objective.isFitter (s₀.candidates :: batches) ∧
        s.progress.Nonworsening objective.isFitter) := by
  refine ⟨?colonySystem, ?antSystem, ?geneticSearch, ?differentialSearch, ?swarmSearch⟩
  case colonySystem =>
    intro config c₀ hstart
    obtain ⟨walk, g', hwalk, c, batches, hafter, hcourse, hoptimal⟩ :=
      ColonySystem.exists_optimal hstart calls k
    exact ⟨walk, g', hwalk, c, batches, hafter, hcourse, hoptimal, hoptimal.nonworsening⟩
  case antSystem =>
    intro config c₀ c hstart hafter
    obtain ⟨walk, g', hwalk, batches, hcourse, hoptimal⟩ :=
      AntSystem.exists_optimal hstart calls k hafter
    exact ⟨AntSystem.after_of_afterUnrefused hafter, walk, g', hwalk, batches, hcourse, hoptimal,
      hoptimal.nonworsening⟩
  case geneticSearch =>
    intro config s₀ hstart
    obtain ⟨s, batches, hafter, hcourse, hoptimal⟩ := GeneticSearch.exists_optimal hstart calls k
    exact ⟨s, batches, hafter, hcourse, hoptimal, hoptimal.nonworsening⟩
  case differentialSearch =>
    intro _ _ _ ho config s₀ s hstart hafter
    obtain ⟨batches, hcourse, hoptimal⟩ :=
      DifferentialSearch.exists_optimal ho hstart calls k hafter
    exact ⟨batches, hcourse, hoptimal, hoptimal.nonworsening⟩
  case swarmSearch =>
    intro _ _ ho config s₀ s hstart hafter
    obtain ⟨batches, hcourse, hoptimal⟩ := SwarmSearch.exists_optimal ho hstart calls k hafter
    exact ⟨batches, hcourse, hoptimal, hoptimal.nonworsening⟩

theorem ordinary_sphere {bounds : Bounds Float} (hb : bounds.Proper) :
    (Landscape.sphere bounds).Ordinary where
  isFitter := rfl
  isNaN_value := by
    rintro x _ hx ⟨⟩
    apply NonnegativeSums.isNaN_of_zero_le
    apply zero_le_foldl_add NonnegativeSums.zero_le_neg_zero
    rw [List.forall_mem_map]
    intro v hv
    have hfinite : v.isFinite = true := hb.isFinite_of_contains hx v hv
    exact (Binary64.rounds_mul hfinite hfinite).zero_le (mul_self_nonneg _)

theorem optimal_throughout_fourCities :
    letI := unitPower
    (∃ c₀ c : ColonySystem Generator Float, ∃ walk batches,
      ColonySystem.start fourCities ⟨2, 3, 1, 0.5, 0.1, 0.1, 7⟩ (Generator.ofSeed 7) = .ok c₀ ∧
      ColonySystem.after [.run] 1 c₀ = .ok c ∧
      Course ColonySystem.Evaluates ColonySystem.finished c₀ batches c ∧
      c.progress.Optimal (fun a b => a < b) ([Walk.candidate walk] :: batches) ∧
      c.progress.Nonworsening fun a b => a < b) ∧
    (∃ c₀ c : AntSystem Generator Float, ∃ walk batches,
      AntSystem.start fourCities ⟨2, 3, 1, 1, 0.5, 7⟩ (Generator.ofSeed 7) = .ok c₀ ∧
      AntSystem.afterUnrefused [.run] 1 c₀ = .ok c ∧
      Course AntSystem.Evaluates AntSystem.finished c₀ batches c ∧
      c.progress.Optimal (fun a b => a < b) ([Walk.candidate walk] :: batches) ∧
      c.progress.Nonworsening fun a b => a < b) ∧
    (∃ s₀ s : GeneticSearch Generator Float, ∃ batches,
      GeneticSearch.start fourCities ⟨6, 2, 0.9, 0.5, 0.3, 7⟩ (Generator.ofSeed 7) = .ok s₀ ∧
      GeneticSearch.after [.run] 1 s₀ = .ok s ∧
      Course GeneticSearch.Evaluates GeneticSearch.finished s₀ batches s ∧
      s.progress.Optimal (fun a b => a < b) (s₀.candidates :: batches) ∧
      s.progress.Nonworsening fun a b => a < b) ∧
    (∃ s₀ s : DifferentialSearch Generator Float, ∃ batches,
      DifferentialSearch.start (Landscape.sphere ⟨[-1], [2]⟩) ⟨4, 1, 0.5, 0.9, 7⟩
        (Generator.ofSeed 7) = .ok s₀ ∧
      DifferentialSearch.after [.run] 1 s₀ = .ok s ∧
      Course DifferentialSearch.Evaluates DifferentialSearch.finished s₀ batches s ∧
      s.progress.Optimal (fun a b => a < b) (s₀.standing.slots :: batches) ∧
      s.progress.Nonworsening fun a b => a < b) ∧
    (∃ s₀ s : SwarmSearch Generator Float, ∃ batches,
      SwarmSearch.start (Landscape.sphere ⟨[-1], [2]⟩) ⟨3, 1, 2, 2, 0.9, 0.2, 7⟩
        (Generator.ofSeed 7) = .ok s₀ ∧
      SwarmSearch.after [.run] 1 s₀ = .ok s ∧
      Course SwarmSearch.Evaluates SwarmSearch.finished s₀ batches s ∧
      s.progress.Optimal (fun a b => a < b) (s₀.candidates :: batches) ∧
      s.progress.Nonworsening fun a b => a < b) := by
  let := unitPower
  have hall := optimal_throughout fourCities (Landscape.sphere ⟨[-1], [2]⟩)
    (Generator.ofSeed 7) [.run] 1
  refine ⟨?colonySystem, ?antSystem, ?geneticSearch, ?differentialSearch, ?swarmSearch⟩
  case colonySystem =>
    obtain ⟨c₀, hstart⟩ : ∃ c₀ : ColonySystem Generator Float, ColonySystem.start fourCities
        ⟨2, 3, 1, 0.5, 0.1, 0.1, 7⟩ (Generator.ofSeed 7) = .ok c₀ :=
      exists_eq_ok (by decide +kernel)
    obtain ⟨walk, _, -, c, batches, hafter, hreported⟩ := hall.1 _ c₀ hstart
    exact ⟨c₀, c, walk, batches, hstart, hafter, hreported⟩
  case antSystem =>
    obtain ⟨c₀, hstart, c, hafter⟩ : ∃ c₀ : AntSystem Generator Float, AntSystem.start fourCities
        ⟨2, 3, 1, 1, 0.5, 7⟩ (Generator.ofSeed 7) = .ok c₀ ∧
        ∃ c, AntSystem.afterUnrefused [.run] 1 c₀ = .ok c :=
      exists_eq_ok_and_eq_ok (by decide +kernel)
    obtain ⟨-, walk, _, -, batches, hreported⟩ := hall.2.1 _ c₀ c hstart hafter
    exact ⟨c₀, c, walk, batches, hstart, hafter, hreported⟩
  case geneticSearch =>
    obtain ⟨s₀, hstart⟩ : ∃ s₀ : GeneticSearch Generator Float, GeneticSearch.start fourCities
        ⟨6, 2, 0.9, 0.5, 0.3, 7⟩ (Generator.ofSeed 7) = .ok s₀ :=
      exists_eq_ok (by decide +kernel)
    obtain ⟨s, batches, hafter, hreported⟩ := hall.2.2.1 _ s₀ hstart
    exact ⟨s₀, s, batches, hstart, hafter, hreported⟩
  case differentialSearch =>
    obtain ⟨s₀, hstart, s, hafter⟩ : ∃ s₀ : DifferentialSearch Generator Float,
        DifferentialSearch.start (Landscape.sphere ⟨[-1], [2]⟩) ⟨4, 1, 0.5, 0.9, 7⟩
          (Generator.ofSeed 7) = .ok s₀ ∧
        ∃ s, DifferentialSearch.after [.run] 1 s₀ = .ok s :=
      exists_eq_ok_and_eq_ok (by decide +kernel)
    obtain ⟨hb, -⟩ := (DifferentialSearch.start_meets _ _ _).of_eq hstart
    obtain ⟨batches, hreported⟩ := hall.2.2.2.1 (ordinary_sphere hb.toProper) _ s₀ s hstart hafter
    exact ⟨s₀, s, batches, hstart, hafter, hreported⟩
  case swarmSearch =>
    obtain ⟨s₀, hstart, s, hafter⟩ : ∃ s₀ : SwarmSearch Generator Float,
        SwarmSearch.start (Landscape.sphere ⟨[-1], [2]⟩) ⟨3, 1, 2, 2, 0.9, 0.2, 7⟩
          (Generator.ofSeed 7) = .ok s₀ ∧
        ∃ s, SwarmSearch.after [.run] 1 s₀ = .ok s :=
      exists_eq_ok_and_eq_ok (by decide +kernel)
    obtain ⟨hb, -⟩ := (SwarmSearch.start_meets _ _ _).of_eq hstart
    obtain ⟨batches, hreported⟩ := hall.2.2.2.2 (ordinary_sphere hb.toProper) _ s₀ s hstart hafter
    exact ⟨s₀, s, batches, hstart, hafter, hreported⟩

end PopulationSearch
