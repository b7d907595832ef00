import PopulationSearch.Proofs.Feasibility
import PopulationSearch.Proofs.GeneticSearch
import PopulationSearch.Proofs.VectorFeasibility

/-! No search meets a fault of its own. Memory is taken to suffice. -/

namespace PopulationSearch

structure Reliable {α σ : Type} (start : Except (Rejection α) σ)
    (after : List Call → Nat → σ → Except Fault σ) : Prop where
  starts : (∃ s, start = .ok s) ∨ ∃ error log, start = .error ⟨.invalid error, log⟩
  continues : ∀ s, start = .ok s → ∀ calls k, ∃ s', after calls k s = .ok s'

theorem Rejection.eq_invalid_of_blames {α : Type} {R : Fault → Prop} {r : Rejection α}
    (h : r.Blames R) (hR : ∀ f, ¬ R f) : ∃ error log, r = ⟨.invalid error, log⟩ := by
  obtain ⟨failure, log⟩ := r
  cases failure with
  | invalid error => exact ⟨error, log, rfl⟩
  | fault f => exact absurd h (hR f)

theorem Reliable.of_meets {α σ : Type} {start : Except (Rejection α) σ}
    {after : List Call → Nat → σ → Except Fault σ} {I : σ → Prop} {J : σ → σ → Prop}
    {R : Fault → Prop}
    (hR : ∀ f, ¬ R f) (hstart : Meets start I (Rejection.Blames R))
    (hafter : ∀ s, I s → ∀ calls k, Meets (after calls k s) (J s) R) : Reliable start after where
  starts := by
    cases start with
    | error r =>
      obtain ⟨error, log, rfl⟩ := Rejection.eq_invalid_of_blames hstart hR
      exact .inr ⟨error, log, rfl⟩
    | ok s => exact .inl ⟨s, rfl⟩
  continues := by
    rintro s hs calls k
    obtain ⟨s', hs', -⟩ := (hafter s (hstart.of_eq hs) calls k).yields hR
    exact ⟨s', hs'⟩

theorem Reliable.exists_after {α σ : Type} {start : Except (Rejection α) σ}
    {after : List Call → Nat → σ → Except Fault σ} (h : Reliable start after)
    (hstart : start.toBool = true) (calls : List Call) (k : Nat) :
    ∃ s, start = .ok s ∧ ∃ s', after calls k s = .ok s' := by
  obtain ⟨s, hs⟩ := exists_eq_ok hstart
  exact ⟨s, hs, h.continues s hs calls k⟩

theorem Distances.not_fails {α : Type} {d : Distances α}
    (h : ∀ i < d.cities, ∀ j < d.cities, i ≠ j → ∃ x, d.distance i j = .ok x) (f : Fault) :
    ¬ d.Fails f := by
  rintro ⟨i, hi, j, hj, hij, hfail⟩
  obtain ⟨x, hx⟩ := h i hi j hj hij
  cases hx.symm.trans hfail

variable {γ α : Type} [Scalar α] [Source γ α]

theorem Objective.not_failsInside {o : Objective α}
    (h : ∀ x, o.bounds.contains x = true → ∃ v, o.evaluate x = .ok v) (f : Fault) :
    ¬ o.FailsInside f := by
  rintro ⟨x, hx, hfail⟩
  obtain ⟨v, hv⟩ := h x hx
  cases hv.symm.trans hfail

/-- If distances are there for any two cities and objectives have values inside their bounds, every
search goes on through all calls. -/
theorem reliable_throughout [BoundedIndex γ] [FaithfulShuffle γ] [UniformDraws γ]
    [DistinctSamples γ] [FiniteArithmetic α] [Power α] (g : γ) :
    (∀ d : Distances α,
      (∀ i < d.cities, ∀ j < d.cities, i ≠ j → ∃ x, d.distance i j = .ok x) →
      (∀ config, Reliable (ColonySystem.start d config g) ColonySystem.after) ∧
      (∀ config, Reliable (AntSystem.start d config g) AntSystem.after) ∧
      ∀ config, Reliable (GeneticSearch.start d config g) GeneticSearch.after) ∧
    ∀ o : Objective α, (∀ x, o.bounds.contains x = true → ∃ v, o.evaluate x = .ok v) →
      (∀ config, Reliable (DifferentialSearch.start o config g) DifferentialSearch.after) ∧
      ∀ config, Reliable (SwarmSearch.start o config g) SwarmSearch.after := by
  constructor
  · intro d hd
    have hfails := Distances.not_fails hd
    refine ⟨fun config => ?_, fun config => ?_, fun config => ?_⟩
    · apply Reliable.of_meets hfails (ColonySystem.start_meets d config g)
      rintro c ⟨-, ⟨hc, -⟩, -⟩ calls k
      exact .of_yields (ColonySystem.after_yields hc calls k)
    · apply Reliable.of_meets hfails (AntSystem.start_meets d config g)
      rintro c ⟨⟨hc, -⟩, -⟩ calls k
      exact .of_yields (AntSystem.after_yields hc calls k)
    · apply Reliable.of_meets hfails (GeneticSearch.start_meets d config g)
      rintro s ⟨hs, -⟩ calls k
      exact .of_yields (GeneticSearch.after_yields hs calls k)
  · intro o ho
    have hfails := Objective.not_failsInside ho
    refine ⟨fun config => ?_, fun config => ?_⟩
    · apply Reliable.of_meets hfails (DifferentialSearch.start_meets o config g)
      rintro s ⟨hb, hfour, hs⟩ calls k
      exact hs.after hb hfour calls k
    · apply Reliable.of_meets hfails (SwarmSearch.start_meets o config g)
      rintro s ⟨hb, hfit, hs⟩ calls k
      exact hs.after hb hfit calls k

theorem reliable_throughout_farCities :
    letI := unitPower
    (∃ c : ColonySystem Generator Float,
      ColonySystem.start farCities ⟨2, 3, 1, 0.5, 0.1, 0.1, 7⟩ (Generator.ofSeed 7) = .ok c ∧
      ∃ c', ColonySystem.after [.step, .run] 1 c = .ok c') ∧
    (∃ c : AntSystem Generator Float,
      AntSystem.start farCities ⟨2, 3, 1, 1, 0.5, 7⟩ (Generator.ofSeed 7) = .ok c ∧
      ∃ c', AntSystem.after [.step, .run] 1 c = .ok c') ∧
    (∃ s : GeneticSearch Generator Float,
      GeneticSearch.start farCities ⟨6, 2, 0.9, 0.5, 0.3, 7⟩ (Generator.ofSeed 7) = .ok s ∧
      ∃ s', GeneticSearch.after [.step, .run] 1 s = .ok s') ∧
    (∃ s : DifferentialSearch Generator Float,
      DifferentialSearch.start (Landscape.sphere ⟨[-3], [4]⟩) ⟨4, 1, 1.7e308, 1, 7⟩
        (Generator.ofSeed 7) = .ok s ∧
      ∃ s', DifferentialSearch.after [.step, .run] 1 s = .ok s') ∧
    ∃ s : SwarmSearch Generator Float,
      SwarmSearch.start (Landscape.sphere ⟨[-3], [4]⟩) ⟨3, 1, 1.7e308, 1.7e308, -1.7e308, 1, 7⟩
        (Generator.ofSeed 7) = .ok s ∧
      ∃ s', SwarmSearch.after [.step, .run] 1 s = .ok s' := by
  let := unitPower
  have htable : ∀ i < farCities.cities, ∀ j < farCities.cities, i ≠ j →
      (farCities.distance i j).toBool = true := by decide +kernel
  obtain ⟨htours, hvectors⟩ := reliable_throughout (Generator.ofSeed 7)
  obtain ⟨hcolony, hants, hgenes⟩ := htours farCities fun i hi j hj hij =>
    exists_eq_ok (htable i hi j hj hij)
  obtain ⟨hdifferences, hswarm⟩ := hvectors (Landscape.sphere ⟨[-3], [4]⟩) fun x _ => ⟨_, rfl⟩
  refine ⟨(hcolony _).exists_after ?_ _ _, (hants _).exists_after ?_ _ _,
    (hgenes _).exists_after ?_ _ _, (hdifferences _).exists_after ?_ _ _,
    (hswarm _).exists_after ?_ _ _⟩
  all_goals decide +kernel

end PopulationSearch
