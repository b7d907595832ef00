import PopulationSearch.Chance.Generator
import PopulationSearch.Progress
import PopulationSearch.Vector.Landscape
import PopulationSearch.Wheel

/-! Differential evolution. Slots are visited in turn, and a trial takes its slot at once if it is
strictly fitter. -/

namespace PopulationSearch

namespace Differential

structure Config (α : Type) where
  populationSize : Nat
  maxGenerations : Nat
  f : α
  cr : α
  seed : Nat

namespace Config

def default : Config Float := ⟨30, 1000, 0.5, 0.9, Generator.defaultSeed⟩

variable {α : Type} [Scalar α]

def withCr (cr : α) (c : Config α) : Config α := { c with cr := Scalar.clip 0 1 cr }

def validate (c : Config α) : Except (ConfigError α) Unit := do
  if c.populationSize < 4 then throw (.tooSmallGot .populationSize 4 c.populationSize)
  Requirement.atLeast .maxGenerations 1 c.maxGenerations
  Requirement.finite .f c.f
  Requirement.rate .cr c.cr

end Config

end Differential

structure DifferentialSearch (γ α : Type) where
  config : Differential.Config α
  objective : Objective α
  population : List (List α)
  values : List α
  source : γ
  progress : Progress (List α) α

namespace DifferentialSearch

variable {γ α : Type} [Scalar α] [Source γ α]

def start (objective : Objective α) (config : Differential.Config α) (g : γ) :
    Except (Rejection α) (DifferentialSearch γ α) := do
  Requirement.configured config.validate
  (objective.validate : Except (Failure α) Unit)
  let (population, g) ← (Draw.times config.populationSize objective.bounds.sample).run g
  let values ← population.mapM fun x => objective.evaluate x
  let (slot, value) ← demand (leader? objective.isFitter values)
  let position ← demand population[slot]?
  return {
    config := config
    objective := objective
    population := population
    values := values
    source := g
    progress := Progress.start ⟨position, value⟩ (.scattered value) }

/-- The slot of a donor, from a number below one slot less: the target is passed over. -/
def donorSlot (target drawn : Nat) : Nat := if target ≤ drawn then drawn + 1 else drawn

def donor (population : List (List α)) (target : Nat) (donors : List Nat) (k : Nat) :
    Except Fault (List α) := do
  let drawn ← demand donors[k]?
  demand population[donorSlot target drawn]?

def mutant (f : α) (base ahead behind : List α) (d : Nat) : Except Fault α := do
  let x ← demand base[d]?
  let y ← demand ahead[d]?
  let z ← demand behind[d]?
  return x + f * (y - z)

def repair (bounds : Bounds α) (d : Nat) (x : α) : Draw γ α := do
  let lo ← demand bounds.lower[d]?
  let hi ← demand bounds.upper[d]?
  if Interval.contains lo hi x then return x else Draw.uniform lo hi

/-- One random dimension is the mutant's for certain, each other one with probability `cr`. -/
def trial (s : DifferentialSearch γ α) (i : Nat) : Draw γ (List α) := do
  let dimension := s.objective.bounds.dimension
  let certain ← Draw.below dimension
  let donors ← Draw.sample (s.population.length - 1) 3
  let base ← donor s.population i donors 0
  let ahead ← donor s.population i donors 1
  let behind ← donor s.population i donors 2
  let target ← demand s.population[i]?
  (List.range dimension).mapM fun d => do
    let r ← Draw.unit
    let x ←
      if d = certain ∨ r ≤ s.config.cr then mutant s.config.f base ahead behind d
      else demand target[d]?
    repair s.objective.bounds d x

def compete (i : Nat) (x : List α) (value : α) (s : DifferentialSearch γ α) :
    Except Fault (DifferentialSearch γ α) := do
  let old ← demand s.values[i]?
  if s.objective.isFitter value old then
    return { s with
      population := s.population.set i x
      values := s.values.set i value
      progress := s.progress.offer s.objective.isFitter x value }
  return s

def visit (s : DifferentialSearch γ α) (i : Nat) : Except Fault (DifferentialSearch γ α) := do
  let (x, g) ← (trial s i).run s.source
  let value ← s.objective.evaluate x
  compete i x value { s with source := g }

def step (s : DifferentialSearch γ α) : Except Fault (DifferentialSearch γ α) := do
  let s ← (List.range s.population.length).foldlM visit s
  return { s with progress := s.progress.advance }

def run (s : DifferentialSearch γ α) : Except Fault (DifferentialSearch γ α) := do
  let s ← iterate s.config.maxGenerations step s
  return { s with progress := s.progress.finish }

def seeded (objective : Objective Float) (config : Differential.Config Float) :
    Except (Rejection Float) (DifferentialSearch Generator Float) :=
  start objective config (Generator.ofSeed config.seed)

end DifferentialSearch
end PopulationSearch
