import PopulationSearch.Proofs.Calls
import PopulationSearch.Proofs.Standing
import PopulationSearch.Proofs.Wheel
import PopulationSearch.Swarm.Search

/-! Particle swarms as a series of contests for the particles' own bests. -/

namespace PopulationSearch

variable {γ α : Type} [Scalar α] [Source γ α]

namespace Swarm.Particle

def record (p : Particle α) : Best (List α) α := ⟨p.bestPosition, p.bestValue⟩

structure Evaluated (o : Objective α) (p : Particle α) : Prop where
  value : o.evaluate p.position = .ok p.value
  best : o.evaluate p.bestPosition = .ok p.bestValue

theorem fly_ensures (config : Config α) (vmax : List α) (bounds : Bounds α) (best : List α)
    (p : Particle α) :
    Draw.Ensures (fly config vmax bounds best p : Draw γ (Particle α)) fun q =>
      q.record = p.record :=
  (Draw.Ensures.trivial _).bind fun _ _ => .pure rfl

omit [Scalar α] in
theorem record_observe (fitter : α → α → Bool) (value : α) (p : Particle α) :
    (p.observe fitter value).record =
      if fitter value p.bestValue then ⟨p.position, value⟩ else p.record := by
  unfold observe
  split <;> rfl

omit [Scalar α] in
theorem position_observe (fitter : α → α → Bool) (value : α) (p : Particle α) :
    (p.observe fitter value).position = p.position := by
  unfold observe
  split <;> rfl

omit [Scalar α] in
theorem value_observe (fitter : α → α → Bool) (value : α) (p : Particle α) :
    (p.observe fitter value).value = value := by
  unfold observe
  split <;> rfl

end Swarm.Particle

namespace SwarmSearch

open Swarm

variable {s s' : SwarmSearch γ α}

def standing (s : SwarmSearch γ α) : Standing (List α) α where
  slots := s.particles.map Particle.record
  best := s.progress.best

structure SameTask (s s' : SwarmSearch γ α) : Prop where
  config : s'.config = s.config
  objective : s'.objective = s.objective
  length_particles : s'.particles.length = s.particles.length

omit [Scalar α] [Source γ α] in
theorem SameTask.trans {s'' : SwarmSearch γ α} (h : s.SameTask s') (h' : s'.SameTask s'') :
    s.SameTask s'' where
  config := h'.config.trans h.config
  objective := h'.objective.trans h.objective
  length_particles := h'.length_particles.trans h.length_particles

structure Visited (i : Nat) (c : Best (List α) α) (s s' : SwarmSearch γ α) : Prop where
  evaluated : s.objective.evaluate c.solution = .ok c.quality
  slot : i < s.standing.slots.length
  standing : s'.standing = s.standing.contest s.objective.isFitter i c
  flown : ∃ p : Particle α, p.position = c.solution ∧ p.value = c.quality ∧
    s'.particles = s.particles.set i p
  task : s.SameTask s'
  progress : s'.progress = { s.progress with best := s'.progress.best }

theorem visit_ensures (i : Nat) : Ensures (visit s i) fun s' => ∃ c, Visited i c s s' := by
  intro s' h
  obtain ⟨p, hp, h⟩ := bind_eq_ok.mp h
  obtain ⟨⟨q, g⟩, hfly, h⟩ := bind_eq_ok.mp h
  obtain ⟨value, hvalue, h⟩ := bind_eq_ok.mp h
  rw [demand_eq_ok] at hp
  have hrecord : q.record = p.record := Particle.fly_ensures _ _ _ _ p _ _ hfly
  have hi : i < s.standing.slots.length := by
    rw [standing, List.length_map]
    exact (List.getElem?_eq_some_iff.mp hp).1
  have hslot : s.standing.slots[i]? = some q.record := by
    rw [standing, List.getElem?_map, hp, hrecord]
    rfl
  cases h
  refine ⟨⟨q.position, value⟩, hvalue, hi, ?_, ?_, ⟨rfl, rfl, List.length_set⟩, ?_⟩
  · cases hfitter : s.objective.isFitter value q.bestValue with
    | true =>
      rw [Standing.contest_of_fitter hslot hfitter, standing, List.map_set, Particle.record_observe,
        hfitter, if_pos rfl, if_pos rfl, Particle.observe, hfitter]
      rfl
    | false =>
      rw [Standing.contest_of_not_fitter hslot hfitter, standing, List.map_set,
        Particle.record_observe, hfitter]
      have hsame := List.set_getElem_self hi
      rw [(List.getElem?_eq_some_iff.mp hslot).2] at hsame
      exact congrArg (Standing.mk · s.progress.best) hsame
  · exact ⟨_, Particle.position_observe .., Particle.value_observe .., rfl⟩
  · dsimp only
    split <;> rfl

structure Kept (s : SwarmSearch γ α) : Prop where
  length_particles : s.particles.length = s.config.swarmSize
  evaluated : ∀ p ∈ s.particles, p.Evaluated s.objective
  best : ∃ p ∈ s.particles, s.progress.best = ⟨p.bestPosition, p.bestValue⟩

omit [Scalar α] [Source γ α] in
theorem Kept.standing (h : s.Kept) : s.standing.Kept s.objective where
  evaluated := by
    intro b hb
    obtain ⟨p, hp, rfl⟩ := List.mem_map.mp hb
    exact (h.evaluated p hp).best
  best_mem := by
    obtain ⟨p, hp, hbest⟩ := h.best
    exact List.mem_map.mpr ⟨p, hp, hbest.symm⟩

omit [Scalar α] [Source γ α] in
theorem Kept.visited {i : Nat} {c : Best (List α) α} (h : s.Kept) (hvisit : Visited i c s s') :
    s'.Kept := by
  have hkept : s'.standing.Kept s.objective := by
    rw [hvisit.standing]
    exact h.standing.contest hvisit.evaluated
  obtain ⟨p, hposition, hvalue, hparticles⟩ := hvisit.flown
  refine ⟨?_, fun q hq => ⟨?_, ?_⟩, ?_⟩
  · rw [hvisit.task.length_particles, hvisit.task.config, h.length_particles]
  · rw [hvisit.task.objective]
    rw [hparticles] at hq
    rcases List.mem_or_eq_of_mem_set hq with hold | rfl
    · exact (h.evaluated q hold).value
    · rw [hposition, hvalue]
      exact hvisit.evaluated
  · rw [hvisit.task.objective]
    exact hkept.evaluated q.record (List.mem_map_of_mem hq)
  · obtain ⟨q, hq, hbest⟩ := List.mem_map.mp hkept.best_mem
    exact ⟨q, hq, hbest.symm⟩

structure Underway (k : Nat) (s s' : SwarmSearch γ α) : Prop where
  task : s.SameTask s'
  kept : s'.Kept
  contested : s.standing.Contested s.objective k s'.standing
  progress : s'.progress = { s.progress with best := s'.progress.best }

theorem Underway.visit {k : Nat} (h : Underway k s s') :
    Ensures (visit s' k) (Underway (k + 1) s) := by
  refine (visit_ensures k).mono ?_
  rintro s'' ⟨c, hvisit⟩
  refine ⟨h.task.trans hvisit.task, h.kept.visited hvisit, ?_, ?_⟩
  · rw [hvisit.standing, h.task.objective]
    exact h.contested.contest (h.task.objective ▸ hvisit.evaluated)
  · rw [hvisit.progress, h.progress]

theorem visits_ensures (hs : s.Kept) (k : Nat) :
    Ensures ((List.range k).foldlM visit s) (Underway k s) := by
  have h₀ : Underway 0 s s := ⟨⟨rfl, rfl, rfl⟩, hs, Standing.contested_refl _ _, rfl⟩
  exact Ensures.foldlM_range (fun k => Underway k s) h₀ k fun i _ s' h => h.visit

structure Settled (objective : Objective α) (config : Config α) (s : SwarmSearch γ α) : Prop where
  objective : s.objective = objective
  config : s.config = config
  kept : s.Kept
  improving : s.progress.Improving s.objective.Replaces

variable {objective : Objective α} {config : Config α}

theorem scatter_ensures (vmax : List α) :
    Draw.Ensures (scatter objective vmax : Draw γ (Particle α)) fun p =>
      p.Evaluated objective ∧ p.record = ⟨p.position, p.value⟩ := by
  refine (Draw.Ensures.trivial _).bind fun position _ => (Draw.Ensures.trivial _).bind fun _ _ => ?_
  refine (Draw.Ensures.lift (P := fun v => objective.evaluate position = .ok v) ?_).bind ?_
  · exact fun v hv => hv
  · exact fun v hv => .pure ⟨⟨hv, hv⟩, rfl⟩

theorem start_ensures (g : γ) : Ensures (start objective config g) (Settled objective config) := by
  intro s h
  obtain ⟨_, -, h⟩ := bind_eq_ok.mp h
  obtain ⟨_, -, h⟩ := bind_eq_ok.mp h
  obtain ⟨⟨particles, g'⟩, hparticles, h⟩ := bind_eq_ok.mp h
  obtain ⟨⟨i, p⟩, hleader, h⟩ := bind_eq_ok.mp h
  rw [liftM_fault_eq_ok] at hparticles hleader
  rw [demand_eq_ok] at hleader
  obtain ⟨hlen, hscattered⟩ := (scatter_ensures _).times _ g _ hparticles
  have hp : p ∈ particles := List.mem_of_getElem? (getElem?_of_leader? _ hleader)
  cases h
  refine ⟨rfl, rfl, ⟨hlen, ?_, p, hp, rfl⟩, Progress.improving_start _ _ _⟩
  exact fun q hq => (hscattered q hq).1

theorem step_ensures (hs : s.Settled objective config) :
    Ensures (step s) fun s' =>
      s'.Settled objective config ∧ s.standing.FollowedBy objective s'.standing := by
  obtain ⟨rfl, rfl, hkept, himproving⟩ := hs
  refine (visits_ensures hkept _).bind fun s' h => .pure ⟨⟨?_, ?_, ?_, ?_⟩, ?_⟩
  · exact h.task.objective
  · exact h.task.config
  · exact { h.kept with }
  · dsimp only
    rw [h.progress, h.task.objective]
    exact himproving.advance h.contested.best
  · exact h.contested.followed

def finished (s : SwarmSearch γ α) : SwarmSearch γ α := { s with progress := s.progress.finish }

def after (calls : List Call) (k : Nat) (s : SwarmSearch γ α) : Except Fault (SwarmSearch γ α) := do
  let s ← afterCalls step run calls s
  iterate k step s

theorem after_ensures (hs : s.Settled objective config) (calls : List Call) (k : Nat) :
    Ensures (after calls k s) (Settled objective config) := by
  refine afterCalls_ensures (fun _ => rfl) _
    (fun s h => (step_ensures h).mono fun _ => And.left) (fun s h => ?_) calls k hs
  have himproving : s.progress.finish.Improving s.objective.Replaces := { h.improving with }
  exact ⟨h.objective, h.config, { h.kept with }, himproving⟩

end SwarmSearch
end PopulationSearch
