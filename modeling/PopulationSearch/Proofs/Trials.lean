import Mathlib.Data.Set.Function
import PopulationSearch.Proofs.VectorFeasibility

/-! Trials of differential evolution, in whatever state a search has come to. -/

namespace PopulationSearch.DifferentialSearch

variable {γ α : Type} [Scalar α]

theorem donorSlot_bijOn {target n : Nat} (h : target < n) :
    Set.BijOn (donorSlot target) {drawn | drawn < n - 1} {slot | slot < n ∧ slot ≠ target} :=
  bijOn_passOver h

structure Replaced (i : Nat) (x : List α) (s s' : DifferentialSearch γ α) : Prop where
  others : ∀ slot ≠ i, s'.population[slot]? = s.population[slot]? ∧
    s'.values[slot]? = s.values[slot]?
  own : s'.population[i]? = s.population[i]? ∧ s'.values[i]? = s.values[i]? ∨
    s'.population[i]? = some x

variable {s s' : DifferentialSearch γ α}

omit [Scalar α] in
theorem compete_replaces {i : Nat} (hslot : i < s.population.length) (hvalue : i < s.values.length)
    (x : List α) (value : α) :
    Yields (compete i x value s) fun s' => s'.source = s.source ∧ Replaced i x s s' := by
  have hold : s.values[i]? = some s.values[i] := List.getElem?_eq_getElem hvalue
  apply Yields.demand_bind hold
  split
  case isTrue =>
    refine .pure ⟨rfl, fun slot hne => ?_, .inr (List.getElem?_set_self hslot)⟩
    exact ⟨List.getElem?_set_ne hne.symm, List.getElem?_set_ne hne.symm⟩
  case isFalse => exact .pure ⟨rfl, fun _ _ => ⟨rfl, rfl⟩, .inl ⟨rfl, rfl⟩⟩

variable [Source γ α]

theorem visit_replaces {i : Nat} (hslot : i < s.population.length) (hvalue : i < s.values.length)
    {x : List α} {g' : γ} (htrial : (trial s i).run s.source = .ok (x, g'))
    (hx : s.objective.bounds.contains x = true) :
    Meets (visit s i) (fun s' => s'.source = g' ∧ Replaced i x s s') s.objective.FailsInside := by
  rw [visit, htrial, ok_bind]
  refine (s.objective.evaluate_meets hx).bind fun value _ => .of_yields ?_
  refine (compete_replaces (s := { s with source := g' }) hslot hvalue x value).mono ?_
  rintro s' ⟨hsource, hreplaced⟩
  exact ⟨hsource, { hreplaced with }⟩

theorem validate_of_start {o : Objective α} {config : Differential.Config α} {g : γ}
    (h : start o config g = .ok s) : config.validate = .ok () := by
  obtain ⟨_, hconfigured, -⟩ := bind_eq_ok.mp h
  exact (Requirement.configured_meets (R := fun _ => True) config.validate).of_failure.of_eq
    hconfigured

omit [Source γ α] in
theorem cr_of_validate {config : Differential.Config α} (h : config.validate = .ok ()) :
    0 ≤ config.cr ∧ config.cr ≤ 1 := by
  unfold Differential.Config.validate at h
  split at h
  · cases h
  obtain ⟨_, -, h⟩ := bind_eq_ok.mp h
  obtain ⟨_, -, hrate⟩ := bind_eq_ok.mp h
  exact Requirement.rate_eq_ok.mp hrate

variable [FiniteArithmetic α] [UniformDraws γ]

theorem lt_unit_iff {config : Differential.Config α} (hcr : 0 ≤ config.cr) (g : γ) :
    config.cr < (Source.unit g).1 ↔ ¬ (Source.unit g).1 ≤ config.cr := by
  have hunit := Interval.contains_iff.mp (UniformDraws.unit_mem g)
  rw [ComparableScalar.le_iff_not_lt]
  simp [ComparableScalar.isNaN_right hcr, ComparableScalar.isNaN_right hunit.1]

variable [BoundedIndex γ] [DistinctSamples γ]

/-- Whatever is drawn, a trial takes each coordinate from the target or from the mutant of three
other vectors, and only its own slot is at stake. -/
theorem trials_throughout {o : Objective α} {config : Differential.Config α} {g₀ : γ}
    {s₀ s₁ : DifferentialSearch γ α} (hstart : start o config g₀ = .ok s₀) {calls : List Call}
    {k : Nat} (hafter : after calls k s₀ = .ok s₁) {visited : Nat}
    (hvisited : visited ≤ config.populationSize)
    (hvisits : (List.range visited).foldlM visit s₁ = .ok s) {i : Nat}
    (hi : i < config.populationSize) :
    Set.BijOn (donorSlot i) {drawn | drawn < config.populationSize - 1}
      {slot | slot < config.populationSize ∧ slot ≠ i} ∧
    s.objective = o ∧ s.config = config ∧ s.population.length = config.populationSize ∧
    (∀ g : γ, config.cr < (Source.unit g).1 ↔ ¬ (Source.unit g).1 ≤ config.cr) ∧
    ∀ g : γ, ∃ certain a b c x g', Drawn s i g certain a b c ∧
      (trial s i).run g = .ok (x, g') ∧
      Draw.Thread (s.Coordinate i certain a b c) (List.range o.bounds.dimension)
        (drawDonors s g).2 x g' ∧
      Meets (visit { s with source := g } i) (fun s' => s'.source = g' ∧ Replaced i x s s')
        o.FailsInside := by
  obtain ⟨hb, hfour, hinside₀⟩ := (start_meets o config g₀).of_eq hstart
  have hinside₁ := (hinside₀.after hb hfour calls k).of_eq hafter
  have hinside := (hinside₁.visits hb hfour hvisited).of_eq hvisits
  have hsettled := after_ensures (start_ensures g₀ _ hstart) calls k _ hafter
  have hunderway := visits_ensures hsettled.kept visited _ hvisits
  obtain rfl := hinside.objective
  obtain rfl : s.config = config := hunderway.task.config.trans hsettled.config
  have hlength := hinside.length_population
  have hslot : i < s.population.length := hlength ▸ hi
  have hvalue : i < s.values.length := hinside.length_values ▸ hi
  have hcr := (cr_of_validate (validate_of_start hstart)).1
  refine ⟨donorSlot_bijOn hi, rfl, rfl, hlength, lt_unit_iff hcr, fun g => ?_⟩
  obtain ⟨certain, a, b, c, hdrawn, ⟨x, g'⟩, htrial, hthread⟩ :=
    trial_built hb (hlength ▸ hfour) hinside.population hslot g
  have hx := ((trial_yields hb (hlength ▸ hfour) hinside.population hslot) g).of_eq htrial
  refine ⟨certain, a, b, c, x, g', hdrawn, htrial, hthread, ?_⟩
  refine (visit_replaces (s := { s with source := g }) hslot hvalue htrial hx).imp ?_
  rintro s' ⟨hsource, hreplaced⟩
  exact ⟨hsource, { hreplaced with }⟩

theorem trials_throughout_overflow :
    ∃ s₀ s₁ s : DifferentialSearch Generator Float,
      start (Landscape.sphere ⟨[-3, -3], [4, 4]⟩) ⟨4, 1, 1.7e308, 0.5, 42⟩ (Generator.ofSeed 42) =
        .ok s₀ ∧
      after [.run, .step] 1 s₀ = .ok s₁ ∧ (List.range 2).foldlM visit s₁ = .ok s ∧
      ∃ certain a b c x g', Drawn s 1 s.source certain a b c ∧
        (trial s 1).run s.source = .ok (x, g') ∧
        Draw.Thread (s.Coordinate 1 certain a b c) (List.range 2)
          (drawDonors s s.source).2 x g' := by
  obtain ⟨s₀, hstart, s, hs⟩ : ∃ s₀ : DifferentialSearch Generator Float,
      start (Landscape.sphere ⟨[-3, -3], [4, 4]⟩) ⟨4, 1, 1.7e308, 0.5, 42⟩ (Generator.ofSeed 42) =
        .ok s₀ ∧
      ∃ s, (after [.run, .step] 1 s₀ >>= fun s₁ => (List.range 2).foldlM visit s₁) = .ok s :=
    exists_eq_ok_and_eq_ok (by decide +kernel)
  obtain ⟨s₁, hafter, hvisits⟩ := bind_eq_ok.mp hs
  obtain ⟨-, -, -, -, -, hall⟩ := trials_throughout hstart hafter (by decide) hvisits
    (by decide : 1 < 4)
  obtain ⟨certain, a, b, c, x, g', hdrawn, htrial, hthread, -⟩ := hall s.source
  exact ⟨s₀, s₁, s, hstart, hafter, hvisits, certain, a, b, c, x, g', hdrawn, htrial, hthread⟩

end PopulationSearch.DifferentialSearch
