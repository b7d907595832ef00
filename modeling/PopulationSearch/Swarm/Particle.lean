import PopulationSearch.Chance.Generator
import PopulationSearch.Vector.Landscape

/-! The parameters of a particle swarm, and its particles. -/

namespace PopulationSearch.Swarm

structure Config (α : Type) where
  swarmSize : Nat
  maxGenerations : Nat
  c1 : α
  c2 : α
  w : α
  vmaxPercent : α
  seed : Nat

namespace Config

def default : Config Float := ⟨30, 1000, 2, 2, 0.9, 0.2, Generator.defaultSeed⟩

def validate {α : Type} [Scalar α] (c : Config α) : Except (ConfigError α) Unit := do
  Requirement.atLeast .swarmSize 1 c.swarmSize
  Requirement.atLeast .maxGenerations 1 c.maxGenerations
  Requirement.nonnegative .c1 c.c1
  Requirement.nonnegative .c2 c.c2
  Requirement.finite .w c.w
  Requirement.share .vmaxPercent c.vmaxPercent

end Config

structure Particle (α : Type) where
  position : List α
  velocity : List α
  value : α
  bestPosition : List α
  bestValue : α

namespace Particle

variable {γ α : Type} [Scalar α] [Source γ α]

def resting (position velocity : List α) (value : α) : Particle α :=
  ⟨position, velocity, value, position, value⟩

def drive (config : Config α) (r₁ r₂ v x own best : α) : α :=
  config.w * v + config.c1 * r₁ * (own - x) + config.c2 * r₂ * (best - x)

/-- A velocity limited to a range. Pulls that cancel to no number stop the particle. -/
def limit (vmax v : α) : Except Fault α :=
  if Scalar.isNaN v then .ok 0 else Interval.clamp (-vmax) vmax v

def flyDimension (config : Config α) (vmax : List α) (bounds : Bounds α) (best : List α)
    (p : Particle α) (d : Nat) : Draw γ (α × α) := do
  let r₁ ← Draw.unit
  let r₂ ← Draw.unit
  let x ← demand p.position[d]?
  let velocity ← demand p.velocity[d]?
  let own ← demand p.bestPosition[d]?
  let goal ← demand best[d]?
  let most ← demand vmax[d]?
  let lo ← demand bounds.lower[d]?
  let hi ← demand bounds.upper[d]?
  let v ← limit most (drive config r₁ r₂ velocity x own goal)
  let x ← Interval.clamp lo hi (x + v)
  return (v, x)

def fly (config : Config α) (vmax : List α) (bounds : Bounds α) (best : List α) (p : Particle α) :
    Draw γ (Particle α) := do
  let moves ← (List.range p.position.length).mapM (flyDimension config vmax bounds best p)
  return { p with velocity := moves.map Prod.fst, position := moves.map Prod.snd }

def observe (fitter : α → α → Bool) (value : α) (p : Particle α) : Particle α :=
  if fitter value p.bestValue then
    { p with value := value, bestPosition := p.position, bestValue := value }
  else { p with value := value }

end Particle
end PopulationSearch.Swarm
