import Mathlib.Analysis.Convex.Basic
import Mathlib.Data.Rat.Floor
import PopulationSearch.Proofs.Exact
import PopulationSearch.Proofs.Lengths
import PopulationSearch.Proofs.TrailLaw

/-! In exact arithmetic levels stay between the initial trail and the inverse of the best length,
which only grows, but not beyond that of the least tour there can be. -/

namespace PopulationSearch

def Pheromone.Within {α : Type} [Scalar α] (n : Nat) (lo hi : α) (p : Pheromone α) : Prop :=
  ∀ i < n, ∀ j < n, ∃ level, p.get i j = .ok level ∧ lo ≤ level ∧ level ≤ hi

namespace ColonySystem

/-- The initial trail is `trail`, which is positive, and every level lies between it and the inverse
of the length of the best tour, which is at most `ceiling`. -/
structure Corridor {γ α : Type} [Scalar α] (trail ceiling : α) (c : ColonySystem γ α) : Prop where
  trail_pos : 0 < trail
  initialTrail : c.initialTrail = trail
  within : c.pheromone.Within c.distances.cities trail (1 / c.progress.best.quality)
  below : 1 / c.progress.best.quality ≤ ceiling

/-- What keeps the levels in the corridor: the shares they are drawn by are rates, and no tour is so
short that its inverse lies above the ceiling. -/
structure Limits {γ α : Type} [Scalar α] (ceiling : α) (c : ColonySystem γ α) : Prop where
  rho : 0 ≤ c.config.rho ∧ c.config.rho ≤ 1
  alpha : 0 ≤ c.config.alpha ∧ c.config.alpha ≤ 1
  tours : ∀ ant : Walk α, ant.Closed c.distances → 1 / ant.length ≤ ceiling

theorem Limits.of_task {γ α : Type} [Scalar α] {ceiling : α} {c c' : ColonySystem γ α}
    (h : Limits ceiling c) (htask : c.SameTask c') : Limits ceiling c' where
  rho := htask.config ▸ h.rho
  alpha := htask.config ▸ h.alpha
  tours := htask.distances ▸ h.tours

theorem Config.rates_of_validate {α : Type} [Scalar α] {config : Config α}
    (h : config.validate = .ok ()) :
    (0 ≤ config.rho ∧ config.rho ≤ 1) ∧ 0 ≤ config.alpha ∧ config.alpha ≤ 1 := by
  obtain ⟨_, -, h⟩ := bind_eq_ok.mp h
  obtain ⟨_, -, h⟩ := bind_eq_ok.mp h
  obtain ⟨_, -, h⟩ := bind_eq_ok.mp h
  obtain ⟨_, -, h⟩ := bind_eq_ok.mp h
  obtain ⟨_, halpha, hrho⟩ := bind_eq_ok.mp h
  exact ⟨Requirement.rate_eq_ok.mp hrho, Requirement.rate_eq_ok.mp halpha⟩

end ColonySystem

section Exact

variable {K : Type} [Field K] [LinearOrder K] [IsStrictOrderedRing K] [FloorSemiring K]

attribute [local instance] Scalar.exact growingSums_exact nonnegativeSums_exact

namespace Pheromone

variable {rate goal lo hi : K}

theorem mapsTo_blend (hrate : 0 ≤ rate ∧ rate ≤ 1) (hgoal : goal ∈ Set.Icc lo hi) :
    Set.MapsTo (blend rate goal) (Set.Icc lo hi) (Set.Icc lo hi) := fun _ hlevel =>
  convex_Icc lo hi hlevel hgoal (sub_nonneg.mpr hrate.2) hrate.1 (sub_add_cancel 1 rate)

theorem Within.blended {n : Nat} {p p' : Pheromone K} (h : p.Within n lo hi)
    (hrate : 0 ≤ rate ∧ rate ≤ 1) (hgoal : goal ∈ Set.Icc lo hi) (times : Nat × Nat → Nat)
    (hlevels : ∀ i < n, ∀ j < n, p'.get i j = (blend rate goal)^[times (i, j)] <$> p.get i j) :
    p'.Within n lo hi := by
  intro i hi j hj
  obtain ⟨level, hlevel, hmem⟩ := h i hi j hj
  refine ⟨(blend rate goal)^[times (i, j)] level, ?_, ?_⟩
  · rw [hlevels i hi j hj, hlevel]
    rfl
  · exact (mapsTo_blend hrate hgoal).iterate (times (i, j)) hmem

omit [IsStrictOrderedRing K] in
theorem Within.mono {n : Nat} {p : Pheromone K} (h : p.Within n lo hi) {hi' : K} (hle : hi ≤ hi') :
    p.Within n lo hi' := by
  intro i hi j hj
  obtain ⟨level, hlevel, hlo, hhi⟩ := h i hi j hj
  exact ⟨level, hlevel, hlo, hhi.trans hle⟩

end Pheromone

omit [IsStrictOrderedRing K] in
theorem Distances.Sound.exists_least {d : Distances K} (hd : d.Sound) :
    ∃ least : K, 0 < least ∧
      ∀ leg, d.Spans leg → ∀ step, d.distance leg.1 leg.2 = .ok step → least ≤ step := by
  let between (leg : Nat × Nat) : K := (d.distance leg.1 leg.2).toOption.getD 0
  let edges := (Grid.offDiagonal d.cities).toFinset
  have hedges (leg : Nat × Nat) : leg ∈ edges ↔ d.Spans leg :=
    List.mem_toFinset.trans Grid.mem_offDiagonal
  have hbetween {leg : Nat × Nat} {step : K} (h : d.distance leg.1 leg.2 = .ok step) :
      between leg = step := by
    dsimp only [between]
    rw [h]
    rfl
  have hfirst : d.Spans (0, 1) := ⟨hd.cities_pos, hd.two_le, zero_ne_one⟩
  obtain ⟨leg, hleg, hmin⟩ := edges.exists_min_image between ⟨_, (hedges _).mpr hfirst⟩
  have hspans := (hedges leg).mp hleg
  obtain ⟨step, hstep, -⟩ := hd.edge _ hspans.1 _ hspans.2.1 hspans.2.2
  refine ⟨step, hd.zero_lt hspans hstep, fun leg' hleg' step' hstep' => ?_⟩
  rw [← hbetween hstep, ← hbetween hstep']
  exact hmin leg' ((hedges leg').mpr hleg')

theorem Distances.Sound.exists_ceiling {d : Distances K} (hd : d.Sound) :
    ∃ ceiling : K, ∀ ant : Walk K, ant.Closed d → 1 / ant.length ≤ ceiling := by
  obtain ⟨least, hpos, hleast⟩ := hd.exists_least
  refine ⟨1 / least, fun ant hant => one_div_le_one_div_of_le hpos ?_⟩
  obtain ⟨leg, hleg, step, hstep, hle⟩ := hant.tour.exists_leg_le hd hant.length_eq
  exact (hleast leg hleg step hstep).trans hle

namespace ColonySystem

variable {γ : Type} {c c' : ColonySystem γ K} {trail ceiling : K}

omit [IsStrictOrderedRing K] in
theorem Corridor.trail_le (h : Corridor trail ceiling c) (hn : 0 < c.distances.cities) :
    trail ≤ 1 / c.progress.best.quality := by
  obtain ⟨level, -, hlo, hhi⟩ := h.within 0 hn 0 hn
  exact hlo.trans hhi

theorem Corridor.offer (h : Corridor trail ceiling c) (hd : c.distances.Sound)
    (hlimits : Limits ceiling c) {ant : Walk K} (hant : ant.Closed c.distances) :
    Corridor trail ceiling
      { c with progress := c.progress.offer (fun a b => a < b) ant.tour ant.length } := by
  dsimp only [Progress.offer, Best.offer]
  split
  case isTrue hshorter =>
    have hwider := one_div_le_one_div_of_le (hant.zero_lt_length hd) (of_decide_eq_true hshorter).le
    exact ⟨h.trail_pos, h.initialTrail, h.within.mono hwider, hlimits.tours ant hant⟩
  case isFalse => exact { h with }

theorem Corridor.reinforce (h : Corridor trail ceiling c) (hc : c.Sound)
    (hlimits : Limits ceiling c) {legs : List (Nat × Nat)}
    (hlegs : legs <+: Tour.legs c.progress.best.solution) :
    Yields (legs.foldlM (fun p leg => Pheromone.reinforce c.config.alpha
      (1 / c.progress.best.quality) leg.1 leg.2 p) c.pheromone) fun p =>
        Corridor trail ceiling { c with pheromone := p } := by
  have hspans : ∀ leg ∈ legs, leg.1 < c.distances.cities ∧ leg.2 < c.distances.cities := by
    intro leg hleg
    obtain ⟨ha, hb, -⟩ := hc.best.closed.spans hc.distances (hlegs.mem hleg)
    exact ⟨ha, hb⟩
  have hgoal : 1 / c.progress.best.quality ∈ Set.Icc trail (1 / c.progress.best.quality) :=
    ⟨h.trail_le hc.distances.cities_pos, le_rfl⟩
  refine (Pheromone.legs_yields hc.pheromone _ hspans).mono ?_
  rintro p ⟨-, hlevels⟩
  have hwithin := h.within.blended hlimits.alpha hgoal (fun leg => legs.count leg) hlevels
  exact ⟨h.trail_pos, h.initialTrail, hwithin, h.below⟩

variable [Source γ K] [BoundedIndex γ]

theorem Corridor.of_beginning (h : Corridor trail ceiling c) (hc : c.Sound)
    (hlimits : Limits ceiling c) {acts : List Act}
    (hacts : acts <+: schedule c.distances.cities c.ants.length) :
    Yields (acts.foldlM perform c) fun c' =>
      c.Underway (fun i => errands (turns Act.ant acts i)) c' ∧ Corridor trail ceiling c' := by
  refine (levels_of_beginning hc hacts).mono ?_
  rintro c' ⟨hunder, hlevels⟩
  have htrail : c.initialTrail ∈ Set.Icc trail (1 / c.progress.best.quality) := by
    rw [h.initialTrail]
    exact ⟨le_rfl, h.trail_le hc.distances.cities_pos⟩
  refine ⟨hunder, h.trail_pos, hunder.task.initialTrail.trans h.initialTrail, ?_, ?_⟩
  · rw [hunder.task.distances, hunder.progress]
    exact h.within.blended hlimits.rho htrail _ hlevels
  · rw [hunder.progress]
    exact h.below

theorem Corridor.generation (h : Corridor trail ceiling c) (hc : c.Sound)
    (hlimits : Limits ceiling c) :
    ∃ c₁ c₂, (schedule c.distances.cities c.ants.length).foldlM perform c = .ok c₁ ∧
      c₁.offerLeader = .ok c₂ ∧ Corridor trail ceiling c₂ ∧
      ∀ legs, legs <+: Tour.legs c₂.progress.best.solution →
        ∃ p, legs.foldlM (fun p leg => Pheromone.reinforce c₂.config.alpha
          (1 / c₂.progress.best.quality) leg.1 leg.2 p) c₂.pheromone = .ok p ∧
          Corridor trail ceiling { c₂ with pheromone := p } := by
  obtain ⟨c₁, hperformed, hunder, h₁⟩ := h.of_beginning hc hlimits List.prefix_rfl
  have hsound := hunder.sound hc
  have hclosed : ∀ ant ∈ c₁.ants, ant.Closed c₁.distances := by
    rw [hunder.task.distances]
    exact closed_of_schedule hc hunder
  obtain ⟨_, hoffer, hsound₂, ant, hant, rfl⟩ := hsound.offerLeader_yields hclosed
  have hlimits₁ := hlimits.of_task hunder.task
  have h₂ := h₁.offer hsound.distances hlimits₁ (hclosed ant hant)
  have hlimits₂ : Limits ceiling
      { c₁ with progress := c₁.progress.offer (fun a b => a < b) ant.tour ant.length } :=
    { hlimits₁ with }
  exact ⟨c₁, _, hperformed, hoffer, h₂, fun legs hlegs => h₂.reinforce hsound₂ hlimits₂ hlegs⟩

theorem Corridor.step (h : Corridor trail ceiling c) (hc : c.Sound) (hlimits : Limits ceiling c) :
    Yields (step c) fun c' => c.Continues c' ∧ Corridor trail ceiling c' := by
  obtain ⟨c', hstep, hcontinues, -⟩ := step_yields hc
  refine ⟨c', hstep, hcontinues, ?_⟩
  obtain ⟨c₁, c₂, hperformed, hoffer, -, hreinforce⟩ := h.generation hc hlimits
  obtain ⟨p, hp, hcorridor⟩ := hreinforce _ List.prefix_rfl
  rw [ColonySystem.step, hperformed, ok_bind, hoffer, ok_bind] at hstep
  obtain ⟨c₃, h₃, hstep⟩ := bind_eq_ok.mp hstep
  obtain ⟨p', hp', h₃⟩ := bind_eq_ok.mp h₃
  cases hp.symm.trans hp'
  cases h₃
  cases hstep
  exact { hcorridor with }

theorem Corridor.after (h : Corridor trail ceiling c) (hc : c.Sound) (hlimits : Limits ceiling c)
    (calls : List Call) (k : Nat) :
    Yields (after calls k c) fun c' => c.Continues c' ∧ Corridor trail ceiling c' := by
  apply after_keeps _ _ calls k ⟨hc.continues, h⟩
  · rintro c' ⟨hcontinues, h'⟩
    refine (h'.step hcontinues.sound (hlimits.of_task hcontinues.task)).mono fun c'' h'' => ?_
    exact ⟨hcontinues.trans h''.1, h''.2⟩
  · rintro c' ⟨hcontinues, h'⟩
    exact ⟨⟨{ hcontinues.sound with }, { hcontinues.task with }⟩, { h' with }⟩

theorem corridor_of_start [Power K] {d : Distances K} {config : Config K} {g : γ}
    (h : start d config g = .ok c) :
    ∃ walk g', (Walk.nearest d).run g = .ok (walk, g') ∧ ∃ ceiling, Limits ceiling c ∧
      Corridor (1 / ((d.cities : K) * walk.length)) ceiling c := by
  obtain ⟨hc, rfl, rfl, -⟩ := start_sound h
  obtain ⟨hrho, halpha⟩ :=
    Config.rates_of_validate ((start_meets c.distances c.config g).of_eq h).1
  obtain ⟨ceiling, hceiling⟩ := hc.distances.exists_ceiling
  obtain ⟨walk, g', hrun, hseeded⟩ := start_seed h
  obtain ⟨event, hprogress⟩ := hseeded.progress
  have hlength := hseeded.closed.zero_lt_length hc.distances
  have hcities : (1 : K) ≤ c.distances.cities := by exact_mod_cast hc.distances.cities_pos
  -- the trail divides by the number of cities as well, so it is at most the first inverse length
  have hwhole : walk.length ≤ c.distances.cities * walk.length :=
    le_mul_of_one_le_left hlength.le hcities
  have htrail := hseeded.initialTrail
  refine ⟨walk, g', hrun, ceiling, ⟨hrho, halpha, hceiling⟩,
    one_div_pos.mpr (hlength.trans_le hwhole), htrail, ?_, ?_⟩
  · intro i hi j hj
    refine ⟨c.initialTrail, ?_, htrail.ge, ?_⟩
    · rw [hseeded.pheromone, Grid.get_uniform _ hi hj]
    · rw [htrail, hprogress]
      exact one_div_le_one_div_of_le hlength hwhole
  · rw [hprogress]
    exact hceiling walk hseeded.closed

/-- No level leaves the corridor, not even within a generation, and one ceiling serves all calls. -/
theorem corridor_throughout [Power K] {d : Distances K} {config : Config K} {g : γ}
    {c₀ : ColonySystem γ K} (hstart : start d config g = .ok c₀) :
    ∃ walk g', (Walk.nearest d).run g = .ok (walk, g') ∧
      ∃ trail ceiling : K, trail = 1 / ((d.cities : K) * walk.length) ∧ ∀ calls k,
        ∃ c, after calls k c₀ = .ok c ∧ c.distances = d ∧ Corridor trail ceiling c ∧
          (∀ acts, acts <+: schedule d.cities config.numAnts →
            ∃ c', acts.foldlM perform c = .ok c' ∧ Corridor trail ceiling c') ∧
          ∃ c₁ c₂, (schedule d.cities config.numAnts).foldlM perform c = .ok c₁ ∧
            c₁.offerLeader = .ok c₂ ∧ Corridor trail ceiling c₂ ∧
            ∀ legs, legs <+: Tour.legs c₂.progress.best.solution →
              ∃ p, legs.foldlM (fun p leg => Pheromone.reinforce c₂.config.alpha
                (1 / c₂.progress.best.quality) leg.1 leg.2 p) c₂.pheromone = .ok p ∧
                Corridor trail ceiling { c₂ with pheromone := p } := by
  obtain ⟨hc₀, rfl, rfl, hants⟩ := start_sound hstart
  obtain ⟨walk, g', hrun, ceiling, hlimits, h₀⟩ := corridor_of_start hstart
  obtain ⟨trail, htrail⟩ : ∃ trail : K, trail = 1 / ((c₀.distances.cities : K) * walk.length) :=
    ⟨_, rfl⟩
  rw [← htrail] at h₀
  refine ⟨walk, g', hrun, trail, ceiling, htrail, fun calls k => ?_⟩
  obtain ⟨c, hafter, ⟨hc, htask⟩, h⟩ := h₀.after hc₀ hlimits calls k
  have hlimits' := hlimits.of_task htask
  refine ⟨c, hafter, htask.distances, h, ?_⟩
  rw [← hants, ← htask.length_ants, ← htask.distances]
  refine ⟨fun acts hacts => ?_, ?_⟩
  · obtain ⟨c', hperformed, -, h'⟩ := h.of_beginning hc hlimits' hacts
    exact ⟨c', hperformed, h'⟩
  · exact h.generation hc hlimits'

structure Clock where
  ticks : Nat

instance : Source Clock ℚ where
  index n clock := (clock.ticks % n, ⟨clock.ticks + 1⟩)
  unit clock := (1 / (clock.ticks + 2), ⟨clock.ticks + 1⟩)
  between lo hi clock := (lo + (hi - lo) / (clock.ticks + 1), ⟨clock.ticks + 1⟩)
  shuffle l clock := (l.rotate clock.ticks, ⟨clock.ticks + 1⟩)
  sample n amount clock := (((List.range n).rotate clock.ticks).take amount, ⟨clock.ticks + 1⟩)

instance : BoundedIndex Clock := ⟨fun _ clock hn => Nat.mod_lt clock.ticks hn⟩

instance : FaithfulShuffle Clock := ⟨fun l clock => List.rotate_perm l clock.ticks⟩

def threeCities : Distances ℚ :=
  DistanceTable.toDistances ⟨⟨3, #[0, 3, 4, 3, 0, 5, 4, 5, 0]⟩⟩

theorem corridor_throughout_threeCities :
    letI : Power ℚ := ⟨fun x y => if y < 0 then 1 / x else x⟩
    ∃ c₀ : ColonySystem Clock ℚ,
      start threeCities ⟨2, 3, 1, 1 / 2, 1 / 10, 1 / 10, 7⟩ ⟨7⟩ = .ok c₀ ∧
      ∃ ceiling, ∀ calls k, ∃ c, after calls k c₀ = .ok c ∧ Corridor (1 / 36) ceiling c := by
  let power : Power ℚ := ⟨fun x y => if y < 0 then 1 / x else x⟩
  obtain ⟨c₀, hstart⟩ : ∃ c₀ : ColonySystem Clock ℚ,
      start threeCities ⟨2, 3, 1, 1 / 2, 1 / 10, 1 / 10, 7⟩ ⟨7⟩ = .ok c₀ :=
    exists_eq_ok (by decide +kernel)
  obtain ⟨walk, g', hrun, _, ceiling, rfl, hall⟩ := corridor_throughout hstart
  have hnearest : ((Walk.nearest threeCities).run (⟨7⟩ : Clock)).toOption.map (·.1.length) =
      some 12 := by decide +kernel
  rw [hrun] at hnearest
  have hlength : walk.length = 12 := Option.some.inj hnearest
  have htrail : 1 / ((threeCities.cities : ℚ) * walk.length) = 1 / 36 := by
    rw [hlength]
    decide +kernel
  rw [htrail] at hall
  refine ⟨c₀, hstart, ceiling, fun calls k => ?_⟩
  obtain ⟨c, hafter, -, h, -⟩ := hall calls k
  exact ⟨c, hafter, h⟩

end ColonySystem
end Exact
end PopulationSearch
