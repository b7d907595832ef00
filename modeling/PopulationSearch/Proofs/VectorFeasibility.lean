import PopulationSearch.Proofs.Box
import PopulationSearch.Proofs.DifferentialSearch
import PopulationSearch.Proofs.Draws
import PopulationSearch.Proofs.Rejections
import PopulationSearch.Proofs.SwarmSearch
import PopulationSearch.Vector.Landscape

/-! Vector searches stay inside their bounds, however large their parameters are. -/

namespace PopulationSearch

variable {γ α : Type} [Scalar α] [Source γ α] {o : Objective α}

theorem Objective.validate_eq_ok [FiniteArithmetic α] (h : o.validate = .ok ()) :
    o.bounds.Sound := by
  obtain ⟨_, hbounds, -⟩ := bind_eq_ok.mp h
  exact Bounds.sound_of_validate hbounds

namespace DifferentialSearch

structure Inside (o : Objective α) (size : Nat) (s : DifferentialSearch γ α) : Prop where
  objective : s.objective = o
  length_population : s.population.length = size
  length_values : s.values.length = size
  population : ∀ x ∈ s.population, o.bounds.contains x = true
  best : o.bounds.contains s.progress.best.solution = true

variable {size : Nat} {s : DifferentialSearch γ α}

omit [Source γ α] in
theorem Inside.compete (h : Inside o size s) {i : Nat} (hi : i < size) {x : List α}
    (hx : o.bounds.contains x = true) (value : α) :
    Yields (compete i x value s) (Inside o size) := by
  have hi' : i < s.values.length := by rwa [h.length_values]
  have hold : s.values[i]? = some s.values[i] := List.getElem?_eq_getElem hi'
  apply Yields.demand_bind hold
  split
  case isTrue =>
    refine .pure ⟨h.objective, ?_, ?_, ?_, ?_⟩
    · rw [List.length_set, h.length_population]
    · rw [List.length_set, h.length_values]
    · intro y hy
      rcases List.mem_or_eq_of_mem_set hy with hy | rfl
      · exact h.population y hy
      · exact hx
    · exact Best.offer_of (P := fun b => o.bounds.contains b.solution = true) h.best _ hx
  case isFalse => exact .pure h

variable [FiniteArithmetic α] [UniformDraws γ]

section Generations

variable [BoundedIndex γ] [DistinctSamples γ]

theorem Inside.visit (h : Inside o size s) (hb : o.bounds.Sound) (hfour : 4 ≤ size) {i : Nat}
    (hi : i < size) : Meets (visit s i) (Inside o size) o.FailsInside := by
  obtain rfl := h.objective
  obtain rfl := h.length_population
  have htrial := trial_yields hb hfour h.population hi
  refine (Meets.of_yields (htrial s.source)).bind ?_
  rintro ⟨x, g⟩ hx
  refine (s.objective.evaluate_meets hx).bind fun value _ => .of_yields ?_
  have hsource : Inside s.objective s.population.length { s with source := g } := { h with }
  exact hsource.compete hi hx value

theorem Inside.visits (h : Inside o size s) (hb : o.bounds.Sound) (hfour : 4 ≤ size) {k : Nat}
    (hk : k ≤ size) :
    Meets ((List.range k).foldlM DifferentialSearch.visit s) (Inside o size) o.FailsInside := by
  refine Meets.foldlM _ _ h fun i hi s' h' => h'.visit hb hfour ?_
  exact (List.mem_range.mp hi).trans_le hk

theorem Inside.step (h : Inside o size s) (hb : o.bounds.Sound) (hfour : 4 ≤ size) :
    Meets (step s) (Inside o size) o.FailsInside := by
  refine (h.visits hb hfour h.length_population.le).bind fun s' h' => .pure ?_
  exact { h' with }

theorem Inside.after (h : Inside o size s) (hb : o.bounds.Sound) (hfour : 4 ≤ size)
    (calls : List Call) (k : Nat) : Meets (after calls k s) (Inside o size) o.FailsInside := by
  have hfinish : ∀ s : DifferentialSearch γ α, Inside o size s → Inside o size (finished s) :=
    fun s h => { h with }
  exact afterCalls_meets (fun _ => rfl) _ (fun s h => h.step hb hfour) hfinish calls k h

end Generations

theorem start_meets (o : Objective α) (config : Differential.Config α) (g : γ) :
    Meets (start o config g)
      (fun s => o.bounds.Sound ∧ 4 ≤ config.populationSize ∧ Inside o config.populationSize s)
      (Rejection.Blames o.FailsInside) := by
  refine (Requirement.configured_meets config.validate).of_failure.bind fun _ hconfig => ?_
  refine Meets.of_error.of_failure.bind fun _ hvalid => ?_
  have hb := Objective.validate_eq_ok hvalid
  have hfour : 4 ≤ config.populationSize := by
    by_contra hless
    rw [Differential.Config.validate, if_pos (not_le.mp hless)] at hconfig
    cases hconfig
  have hscatter := (Bounds.sample_yields (γ := γ) hb.toProper).times config.populationSize g
  refine (Meets.of_yields hscatter).reject.bind ?_
  rintro ⟨population, g'⟩ ⟨hlen, hpopulation⟩
  refine (Meets.mapM population fun x hx => (o.evaluate_meets (hpopulation x hx)).reject).bind ?_
  intro values hvalues
  have hlen' : values.length = config.populationSize := hvalues.length_eq.symm.trans hlen
  have hne : values ≠ [] := List.ne_nil_of_length_pos (by omega)
  obtain ⟨slot, value, hleader, hvalue⟩ := leader?_mem o.isFitter hne
  have hslot : slot < population.length := by
    rw [hvalues.length_eq]
    exact (List.getElem?_eq_some_iff.mp hvalue).1
  have hposition : population[slot]? = some population[slot] := List.getElem?_eq_getElem hslot
  apply Meets.demand_bind hleader
  apply Meets.demand_bind hposition
  exact .pure ⟨hb, hfour, rfl, hlen, hlen', hpopulation, hpopulation _ (List.getElem_mem hslot)⟩

end DifferentialSearch

namespace SwarmSearch

open Swarm

structure Inside (o : Objective α) (config : Config α) (s : SwarmSearch γ α) : Prop where
  objective : s.objective = o
  vmax : s.vmax = o.bounds.reach config.vmaxPercent
  length_particles : s.particles.length = config.swarmSize
  particles : ∀ p ∈ s.particles, p.Inside o.bounds s.vmax
  best : o.bounds.contains s.progress.best.solution = true

structure Fit (config : Config α) : Prop where
  size_pos : 0 < config.swarmSize
  share_pos : 0 < config.vmaxPercent
  share_le_one : config.vmaxPercent ≤ 1

variable {config : Config α} {s : SwarmSearch γ α}

omit [Source γ α] in
theorem fit_of_validate (h : config.validate = .ok ()) : Fit config := by
  obtain ⟨_, hsize, h⟩ := bind_eq_ok.mp h
  obtain ⟨_, -, h⟩ := bind_eq_ok.mp h
  obtain ⟨_, -, h⟩ := bind_eq_ok.mp h
  obtain ⟨_, -, h⟩ := bind_eq_ok.mp h
  obtain ⟨_, -, hshare⟩ := bind_eq_ok.mp h
  obtain ⟨hpos, hone⟩ := Requirement.share_eq_ok.mp hshare
  exact ⟨Requirement.atLeast_eq_ok.mp hsize, hpos, hone⟩

variable [FiniteArithmetic α]

theorem Inside.visit (h : Inside o config s) (hb : o.bounds.Sound) (hfit : Fit config) {i : Nat}
    (hi : i < config.swarmSize) :
    Meets (visit s i) (Inside o config) o.FailsInside := by
  obtain rfl := h.objective
  have hi' : i < s.particles.length := by rwa [h.length_particles]
  have hp : s.particles[i]? = some s.particles[i] := List.getElem?_eq_getElem hi'
  have hinside := h.particles _ (List.getElem_mem hi')
  have hreach : ∀ v ∈ s.vmax, Scalar.isFinite v = true ∧ 0 ≤ v := by
    rw [h.vmax]
    exact hb.mem_reach hfit.share_pos hfit.share_le_one
  have hlen : s.vmax.length = s.objective.bounds.dimension := by
    rw [h.vmax, hb.length_reach]
  refine (Meets.of_yields (Yields.demand hp rfl)).bind ?_
  rintro _ rfl
  have hfly := Particle.fly_yields (γ := γ) s.config hb.toProper hreach hlen hinside h.best
  refine (Meets.of_yields (hfly s.source)).bind ?_
  rintro ⟨q, g⟩ hq
  refine (s.objective.evaluate_meets hq.position).bind fun value _ => .pure ?_
  have hobserved := hq.observe s.objective.isFitter value
  refine ⟨rfl, h.vmax, ?_, ?_, ?_⟩
  · dsimp only
    rw [List.length_set, h.length_particles]
  · intro p' hp'
    rcases List.mem_or_eq_of_mem_set hp' with hold | rfl
    · exact h.particles p' hold
    · exact hobserved
  · dsimp only
    split
    · exact Best.offer_of (P := fun b => s.objective.bounds.contains b.solution = true) h.best _
        hobserved.bestPosition
    · exact h.best

theorem Inside.visits (h : Inside o config s) (hb : o.bounds.Sound) (hfit : Fit config) {k : Nat}
    (hk : k ≤ config.swarmSize) :
    Meets ((List.range k).foldlM SwarmSearch.visit s) (Inside o config) o.FailsInside := by
  refine Meets.foldlM _ _ h fun i hi s' h' => h'.visit hb hfit ?_
  exact (List.mem_range.mp hi).trans_le hk

theorem Inside.step (h : Inside o config s) (hb : o.bounds.Sound) (hfit : Fit config) :
    Meets (step s) (Inside o config) o.FailsInside := by
  refine (h.visits hb hfit h.length_particles.le).bind fun s' h' => .pure ?_
  exact { h' with }

theorem Inside.after (h : Inside o config s) (hb : o.bounds.Sound) (hfit : Fit config)
    (calls : List Call) (k : Nat) : Meets (after calls k s) (Inside o config) o.FailsInside := by
  have hfinish : ∀ s : SwarmSearch γ α, Inside o config s → Inside o config (finished s) :=
    fun s h => { h with }
  exact afterCalls_meets (fun _ => rfl) _ (fun s h => h.step hb hfit) hfinish calls k h

variable [UniformDraws γ]

theorem scatter_meets {vmax : List α} (hb : o.bounds.Proper)
    (hvmax : ∀ v ∈ vmax, Scalar.isFinite v = true ∧ 0 ≤ v) :
    Draw.Meets (scatter o vmax : Draw γ (Particle α)) (Particle.Inside o.bounds vmax)
      o.FailsInside := by
  refine (Draw.Meets.of_yields (Bounds.sample_yields hb)).bind fun position hposition => ?_
  have hvelocities := Bounds.sample_yields (γ := γ) (Bounds.around_proper hvmax)
  rw [Bounds.sample_around] at hvelocities
  refine (Draw.Meets.of_yields hvelocities).bind fun velocity hvelocity => ?_
  refine (Draw.Meets.lift (o.evaluate_meets hposition)).bind fun value _ => .pure ?_
  exact ⟨hposition, hvelocity, hposition⟩

theorem start_meets (o : Objective α) (config : Config α) (g : γ) :
    Meets (start o config g) (fun s => o.bounds.Sound ∧ Fit config ∧ Inside o config s)
      (Rejection.Blames o.FailsInside) := by
  refine (Requirement.configured_meets config.validate).of_failure.bind fun _ hconfig => ?_
  refine Meets.of_error.of_failure.bind fun _ hvalid => ?_
  have hb := Objective.validate_eq_ok hvalid
  have hfit := fit_of_validate hconfig
  have hscatter := (scatter_meets (γ := γ) hb.toProper
    (hb.mem_reach hfit.share_pos hfit.share_le_one)).times config.swarmSize g
  refine hscatter.reject.bind ?_
  rintro ⟨particles, g'⟩ ⟨hlen, hparticles⟩
  have hne : particles ≠ [] := by
    apply List.ne_nil_of_length_pos
    rw [hlen]
    exact hfit.size_pos
  obtain ⟨i, p, hleader, hp⟩ :=
    leader?_mem (fun p q : Particle α => o.isFitter p.bestValue q.bestValue) hne
  apply Meets.demand_bind hleader
  exact .pure ⟨hb, hfit, rfl, rfl, hlen, hparticles,
    (hparticles p (List.mem_of_getElem? hp)).bestPosition⟩

end SwarmSearch

/-- Every vector of a search is inside the bounds, between visits too, and no particle is faster
than it may be. -/
theorem inside_throughout [FiniteArithmetic α] [UniformDraws γ] [BoundedIndex γ] [DistinctSamples γ]
    (o : Objective α) (g : γ) (calls : List Call) (k : Nat) :
    (∀ config s₀ s, DifferentialSearch.start o config g = .ok s₀ →
      DifferentialSearch.after calls k s₀ = .ok s →
      (∀ x, o.bounds.contains x = true → ∀ y ∈ x, Scalar.isNaN y = false) ∧
      DifferentialSearch.Inside o config.populationSize s ∧
      ∀ j ≤ config.populationSize, ∀ s', (List.range j).foldlM DifferentialSearch.visit s = .ok s' →
        DifferentialSearch.Inside o config.populationSize s') ∧
    ∀ config s₀ s, SwarmSearch.start o config g = .ok s₀ →
      SwarmSearch.after calls k s₀ = .ok s →
      (∀ x, o.bounds.contains x = true → ∀ y ∈ x, Scalar.isNaN y = false) ∧
      SwarmSearch.Inside o config s ∧
      ∀ j ≤ config.swarmSize, ∀ s', (List.range j).foldlM SwarmSearch.visit s = .ok s' →
        SwarmSearch.Inside o config s' := by
  constructor
  · intro config s₀ s hstart hafter
    obtain ⟨hb, hfour, h₀⟩ := (DifferentialSearch.start_meets o config g).of_eq hstart
    have h := (h₀.after hb hfour calls k).of_eq hafter
    exact ⟨fun x => hb.isNaN_of_contains, h, fun j hj s' hs' => (h.visits hb hfour hj).of_eq hs'⟩
  · intro config s₀ s hstart hafter
    obtain ⟨hb, hfit, h₀⟩ := (SwarmSearch.start_meets o config g).of_eq hstart
    have h := (h₀.after hb hfit calls k).of_eq hafter
    exact ⟨fun x => hb.isNaN_of_contains, h, fun j hj s' hs' => (h.visits hb hfit hj).of_eq hs'⟩

theorem inside_throughout_overflow :
    (∃ s₀ : DifferentialSearch Generator Float,
      DifferentialSearch.start (Landscape.sphere ⟨[-3], [4]⟩) ⟨4, 1, 1.7e308, 1, 42⟩
        (Generator.ofSeed 42) = .ok s₀ ∧
      ∃ s, DifferentialSearch.after [.run, .step] 1 s₀ = .ok s ∧
        DifferentialSearch.Inside (Landscape.sphere ⟨[-3], [4]⟩) 4 s) ∧
    ∃ s₀ : SwarmSearch Generator Float,
      SwarmSearch.start (Landscape.sphere ⟨[-3], [4]⟩) ⟨3, 1, 1.7e308, 1.7e308, -1.7e308, 1, 42⟩
        (Generator.ofSeed 42) = .ok s₀ ∧
      ∃ s, SwarmSearch.after [.run, .step] 1 s₀ = .ok s ∧
        SwarmSearch.Inside (Landscape.sphere ⟨[-3], [4]⟩)
          ⟨3, 1, 1.7e308, 1.7e308, -1.7e308, 1, 42⟩ s := by
  have hall := inside_throughout (Landscape.sphere ⟨[-3], [4]⟩ : Objective Float)
    (Generator.ofSeed 42) [.run, .step] 1
  constructor
  · obtain ⟨s₀, hstart, s, hafter⟩ : ∃ s₀ : DifferentialSearch Generator Float,
        DifferentialSearch.start (Landscape.sphere ⟨[-3], [4]⟩) ⟨4, 1, 1.7e308, 1, 42⟩
          (Generator.ofSeed 42) = .ok s₀ ∧
        ∃ s, DifferentialSearch.after [.run, .step] 1 s₀ = .ok s :=
      exists_eq_ok_and_eq_ok (by decide +kernel)
    obtain ⟨-, hinside, -⟩ := hall.1 _ s₀ s hstart hafter
    exact ⟨s₀, hstart, s, hafter, hinside⟩
  · obtain ⟨s₀, hstart, s, hafter⟩ : ∃ s₀ : SwarmSearch Generator Float,
        SwarmSearch.start (Landscape.sphere ⟨[-3], [4]⟩) ⟨3, 1, 1.7e308, 1.7e308, -1.7e308, 1, 42⟩
          (Generator.ofSeed 42) = .ok s₀ ∧
        ∃ s, SwarmSearch.after [.run, .step] 1 s₀ = .ok s :=
      exists_eq_ok_and_eq_ok (by decide +kernel)
    obtain ⟨-, hinside, -⟩ := hall.2 _ s₀ s hstart hafter
    exact ⟨s₀, hstart, s, hafter, hinside⟩

end PopulationSearch
