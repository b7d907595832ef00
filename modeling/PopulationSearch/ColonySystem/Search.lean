import PopulationSearch.Chance.Generator
import PopulationSearch.Colony.Basic

/-! The Ant Colony System. The ants move in turn, and after each round the edges just travelled are
drawn towards the initial trail; at the end the edges of the best tour are reinforced. -/

namespace PopulationSearch

namespace ColonySystem

structure Config (α : Type) where
  numAnts : Nat
  maxGenerations : Nat
  beta : α
  q0 : α
  /-- The rate of the reinforcement by the best tour. -/
  alpha : α
  /-- The rate at which an edge just travelled is drawn towards the initial trail. -/
  rho : α
  seed : Nat

namespace Config

def default : Config Float := ⟨10, 1000, 2, 0.9, 0.1, 0.1, Generator.defaultSeed⟩

variable {α : Type} [Scalar α]

def withQ0 (q0 : α) (c : Config α) : Config α := { c with q0 := Scalar.clip 0 1 q0 }

def withAlpha (alpha : α) (c : Config α) : Config α := { c with alpha := Scalar.clip 0 1 alpha }

def withRho (rho : α) (c : Config α) : Config α := { c with rho := Scalar.clip 0 1 rho }

def validate (c : Config α) : Except (ConfigError α) Unit := do
  Requirement.atLeast .numAnts 1 c.numAnts
  Requirement.atLeast .maxGenerations 1 c.maxGenerations
  Requirement.nonnegative .beta c.beta
  Requirement.rate .q0 c.q0
  Requirement.rate .alpha c.alpha
  Requirement.rate .rho c.rho

end Config

end ColonySystem

abbrev ColonySystem (γ α : Type) := Colony (ColonySystem.Config α) γ α

namespace ColonySystem

variable {γ α : Type} [Scalar α] [Power α] [Source γ α]

inductive Act where
  | place (ant : Nat)
  | move (ant : Nat)
  | mark (ant : Nat)
  | close (ant : Nat)
  deriving DecidableEq, Repr

def schedule (cities ants : Nat) : List Act :=
  let all (act : Nat → Act) := (List.range ants).map act
  all .place ++ (List.replicate (cities - 1) (all .move ++ all .mark)).flatten
    ++ all .close ++ all .mark

def start (d : Distances α) (config : Config α) (g : γ) :
    Except (Rejection α) (ColonySystem γ α) := do
  Requirement.configured config.validate
  Colony.start config config.numAnts config.beta
    (fun length => 1 / (Scalar.count d.cities * length)) d g

omit [Power α] in
def move (k : Nat) (c : ColonySystem γ α) : Except Fault (ColonySystem γ α) := do
  let ant ← demand c.ants[k]?
  let (position, g) ←
    (Colony.chooseOrExploit c.pheromone c.visibility c.config.q0 ant).run c.source
  c.advance k position g

omit [Power α] [Source γ α] in
def mark (k : Nat) (c : ColonySystem γ α) : Except Fault (ColonySystem γ α) := do
  let ant ← demand c.ants[k]?
  match ant.lastLeg? with
  | none => return c
  | some (i, j) =>
    let p ← c.pheromone.localUpdate c.config.rho c.initialTrail i j
    return { c with pheromone := p }

omit [Power α] in
def perform (c : ColonySystem γ α) : Act → Except Fault (ColonySystem γ α)
  | .place k => c.place k
  | .move k => move k c
  | .mark k => mark k c
  | .close k => c.close k

omit [Power α] [Source γ α] in
def reinforceBest (c : ColonySystem γ α) : Except Fault (ColonySystem γ α) := do
  let best := c.progress.best
  let p ← c.pheromone.along (Pheromone.reinforce c.config.alpha (1 / best.quality)) best.solution
  return { c with pheromone := p }

omit [Power α] in
def step (c : ColonySystem γ α) : Except Fault (ColonySystem γ α) := do
  let c ← (schedule c.distances.cities c.ants.length).foldlM perform c
  let c ← c.offerLeader
  let c ← reinforceBest c
  return { c with progress := c.progress.advance }

omit [Power α] in
def run (c : ColonySystem γ α) : Except Fault (ColonySystem γ α) := do
  let c ← iterate c.config.maxGenerations step c
  return { c with progress := c.progress.finish }

def seeded (d : Distances Float) (config : Config Float) :
    Except (Rejection Float) (ColonySystem Generator Float) :=
  start d config (Generator.ofSeed config.seed)

end ColonySystem
end PopulationSearch
