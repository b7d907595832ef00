import PopulationSearch.Chance.Generator
import PopulationSearch.Genetic.Operators
import PopulationSearch.Progress
import PopulationSearch.Tour.Walk

/-! Genetic search for tours. Members are drawn by fitness, crossed in pairs and mutated. -/

namespace PopulationSearch

namespace Genetic

structure Chromosome (α : Type) where
  genes : List Nat
  tourLength : α
  fitness : α

namespace Chromosome

variable {α : Type} [Scalar α]

def ofGenes (genes : List Nat) : Chromosome α := ⟨genes, Scalar.infinity, 0⟩

def evaluate (d : Distances α) (c : Chromosome α) : Except Fault (Chromosome α) := do
  let length ← Tour.cyclicLength d c.genes
  return ⟨c.genes, length, 1 / length⟩

end Chromosome

structure Config (α : Type) where
  populationSize : Nat
  maxGenerations : Nat
  crossoverRate : α
  mutationRate : α
  greedyRatio : α
  seed : Nat

namespace Config

def default : Config Float := ⟨30, 1000, 0.9, 0.1, 0.1, Generator.defaultSeed⟩

variable {α : Type} [Scalar α]

def withCrossoverRate (rate : α) (c : Config α) : Config α :=
  { c with crossoverRate := Scalar.clip 0 1 rate }

def withMutationRate (rate : α) (c : Config α) : Config α :=
  { c with mutationRate := Scalar.clip 0 1 rate }

def withGreedyRatio (ratio : α) (c : Config α) : Config α :=
  { c with greedyRatio := Scalar.clip 0 1 ratio }

def greedyCount (c : Config α) : Nat :=
  min (Scalar.nearestNat (Scalar.count c.populationSize * c.greedyRatio)) c.populationSize

def validate (c : Config α) : Except (ConfigError α) Unit := do
  Requirement.atLeast .populationSize 2 c.populationSize
  Requirement.atLeast .maxGenerations 1 c.maxGenerations
  Requirement.rate .crossoverRate c.crossoverRate
  Requirement.rate .mutationRate c.mutationRate
  Requirement.rate .greedyRatio c.greedyRatio

end Config

end Genetic

structure GeneticSearch (γ α : Type) where
  config : Genetic.Config α
  distances : Distances α
  population : List (Genetic.Chromosome α)
  source : γ
  progress : Progress (List Nat) α

namespace GeneticSearch

open Genetic

variable {γ α : Type} [Scalar α] [Source γ α]

def firstGenes (d : Distances α) (greedy others : Nat) : Draw γ (List (List Nat)) := do
  let tours ← Draw.times greedy do
    let walk ← Walk.nearest d
    return walk.tour.dropLast
  let shuffles ← Draw.times others (Draw.shuffle (List.range d.cities))
  return tours ++ shuffles

omit [Source γ α] in
def shortest (population : List (Chromosome α)) : Except Fault (Chromosome α) := do
  let (_, c) ← demand (leader? (fun a b => a.tourLength < b.tourLength) population)
  return c

def start (d : Distances α) (config : Config α) (g : γ) :
    Except (Rejection α) (GeneticSearch γ α) := do
  Requirement.configured config.validate
  d.validate
  let greedy := config.greedyCount
  let (genes, g) ← (firstGenes d greedy (config.populationSize - greedy)).run g
  let population ← genes.mapM fun genes => (Chromosome.ofGenes genes).evaluate d
  let c ← shortest population
  return {
    config := config
    distances := d
    population := population
    source := g
    progress := Progress.start ⟨Tour.close c.genes, c.tourLength⟩ (.populated greedy c.tourLength) }

def selection (amount : Nat) (population : List (Chromosome α)) :
    Draw γ (List (Chromosome α)) := do
  let picks ← Wheel.select (population.map (·.fitness)) amount
  picks.mapM fun i => demand population[i]?

/-- The first of two participants waits; the second is crossed with it. -/
def pairUp (rate : α) (state : Option Nat × List (Chromosome α)) (i : Nat) :
    Draw γ (Option Nat × List (Chromosome α)) := do
  let r ← Draw.unit
  if rate ≤ r then return state
  match state.1 with
  | none => return (some i, state.2)
  | some mate =>
    let a ← demand state.2[mate]?
    let b ← demand state.2[i]?
    let (child₁, child₂) ← Genetic.crossover a.genes b.genes
    return (none, (state.2.set mate { a with genes := child₁ }).set i { b with genes := child₂ })

def crossover (rate : α) (population : List (Chromosome α)) : Draw γ (List (Chromosome α)) := do
  let (_, population) ← (List.range population.length).foldlM (pairUp rate) (none, population)
  return population

def mutation (rate : α) (population : List (Chromosome α)) : Draw γ (List (Chromosome α)) :=
  population.mapM fun c => do
    let r ← Draw.unit
    if r < rate then
      let genes ← swapMutation c.genes
      return { c with genes := genes }
    return c

def breed (config : Config α) (population : List (Chromosome α)) :
    Draw γ (List (Chromosome α)) := do
  let population ← selection config.populationSize population
  let population ← crossover config.crossoverRate population
  mutation config.mutationRate population

def step (s : GeneticSearch γ α) : Except Fault (GeneticSearch γ α) := do
  let (bred, g) ← (breed s.config s.population).run s.source
  let population ← bred.mapM fun c => c.evaluate s.distances
  let c ← shortest population
  return { s with
    population := population
    source := g
    progress :=
      (s.progress.offer (fun a b => a < b) (Tour.close c.genes) c.tourLength).advance }

def run (s : GeneticSearch γ α) : Except Fault (GeneticSearch γ α) := do
  let s ← iterate s.config.maxGenerations step s
  return { s with progress := s.progress.finish }

def seeded (d : Distances Float) (config : Config Float) :
    Except (Rejection Float) (GeneticSearch Generator Float) :=
  start d config (Generator.ofSeed config.seed)

end GeneticSearch
end PopulationSearch
