import PopulationSearch.Progress
import PopulationSearch.Swarm.Particle
import PopulationSearch.Vector.Landscape
import PopulationSearch.Wheel

/-! Particle swarms. An improvement of the best is followed within the same generation. -/

namespace PopulationSearch

structure SwarmSearch (γ α : Type) where
  config : Swarm.Config α
  objective : Objective α
  vmax : List α
  particles : List (Swarm.Particle α)
  source : γ
  progress : Progress (List α) α

namespace SwarmSearch

open Swarm

variable {γ α : Type} [Scalar α] [Source γ α]

def scatter (objective : Objective α) (vmax : List α) : Draw γ (Particle α) := do
  let position ← objective.bounds.sample
  let velocity ← vmax.mapM fun v => Draw.uniform (-v) v
  let value ← objective.evaluate position
  return Particle.resting position velocity value

def start (objective : Objective α) (config : Config α) (g : γ) :
    Except (Rejection α) (SwarmSearch γ α) := do
  Requirement.configured config.validate
  (objective.validate : Except (Failure α) Unit)
  let vmax := objective.bounds.intervals.map fun interval =>
    config.vmaxPercent * (interval.2 - interval.1)
  let (particles, g) ← (Draw.times config.swarmSize (scatter objective vmax)).run g
  let (_, p) ← demand (leader? (fun p q => objective.isFitter p.bestValue q.bestValue) particles)
  return {
    config := config
    objective := objective
    vmax := vmax
    particles := particles
    source := g
    progress := Progress.start ⟨p.bestPosition, p.bestValue⟩ (.scattered p.bestValue) }

def visit (s : SwarmSearch γ α) (i : Nat) : Except Fault (SwarmSearch γ α) := do
  let p ← demand s.particles[i]?
  let (p, g) ←
    (p.fly s.config s.vmax s.objective.bounds s.progress.best.solution).run s.source
  let value ← s.objective.evaluate p.position
  let improves := s.objective.isFitter value p.bestValue
  let p := p.observe s.objective.isFitter value
  return { s with
    particles := s.particles.set i p
    source := g
    progress :=
      if improves then s.progress.offer s.objective.isFitter p.bestPosition value
      else s.progress }

def step (s : SwarmSearch γ α) : Except Fault (SwarmSearch γ α) := do
  let s ← (List.range s.particles.length).foldlM visit s
  return { s with progress := s.progress.advance }

def run (s : SwarmSearch γ α) : Except Fault (SwarmSearch γ α) := do
  let s ← iterate s.config.maxGenerations step s
  return { s with progress := s.progress.finish }

def seeded (objective : Objective Float) (config : Config Float) :
    Except (Rejection Float) (SwarmSearch Generator Float) :=
  start objective config (Generator.ofSeed config.seed)

end SwarmSearch
end PopulationSearch
