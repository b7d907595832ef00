import PopulationSearch.Chance.Generator
import PopulationSearch.Colony.Basic

/-! The Ant System. The ants build whole tours one after another, then every level decays and each
ant deposits on its tour. A generation is given up where an ant's weights make no wheel. -/

namespace PopulationSearch

namespace AntSystem

structure Config (α : Type) where
  numAnts : Nat
  maxGenerations : Nat
  alpha : α
  beta : α
  rho : α
  seed : Nat

namespace Config

def default : Config Float := ⟨10, 1000, 1, 2, 0.5, Generator.defaultSeed⟩

variable {α : Type} [Scalar α]

def withRho (rho : α) (c : Config α) : Config α := { c with rho := Scalar.clip 0 1 rho }

def validate (c : Config α) : Except (ConfigError α) Unit := do
  Requirement.atLeast .numAnts 1 c.numAnts
  Requirement.atLeast .maxGenerations 1 c.maxGenerations
  Requirement.nonnegative .alpha c.alpha
  Requirement.nonnegative .beta c.beta
  Requirement.rate .rho c.rho

end Config

end AntSystem

abbrev AntSystem (γ α : Type) := Colony (AntSystem.Config α) γ α

namespace AntSystem

variable {γ α : Type} [Scalar α] [Power α] [Source γ α]

inductive Act where
  | place (ant : Nat)
  | move (ant : Nat)
  | close (ant : Nat)
  deriving DecidableEq, Repr

def schedule (cities ants : Nat) : List Act :=
  (List.range ants).map .place
    ++ (List.range ants).flatMap fun k => List.replicate (cities - 1) (.move k) ++ [.close k]

def start (d : Distances α) (config : Config α) (g : γ) :
    Except (Rejection α) (AntSystem γ α) := do
  Requirement.configured config.validate
  Colony.start config config.numAnts config.beta
    (fun length => Scalar.count config.numAnts / length) d g

def move (k : Nat) (c : AntSystem γ α) : Except (Failure α) (AntSystem γ α) := do
  let ant ← demand c.ants[k]?
  let (position, g) ← Colony.choose c.pheromone c.visibility c.config.alpha ant c.source
  c.advance k position g

def perform (c : AntSystem γ α) : Act → Except (Failure α) (AntSystem γ α)
  | .place k => c.place k
  | .move k => move k c
  | .close k => c.close k

/-- Performs acts up to the first that is refused. A refused act has changed nothing. -/
def performAll : List Act → AntSystem γ α → Except Fault (AntSystem γ α × Option (Error α))
  | [], c => .ok (c, none)
  | act :: acts, c =>
    match perform c act with
    | .ok c => performAll acts c
    | .error (.invalid e) => .ok (c, some e)
    | .error (.fault f) => .error f

omit [Power α] [Source γ α] in
def renewTrail (c : AntSystem γ α) : Except Fault (AntSystem γ α) := do
  let p ← c.ants.foldlM
    (fun p ant => Pheromone.along (Pheromone.deposit (1 / ant.length)) ant.tour p)
    (c.pheromone.evaporate c.config.rho c.initialTrail)
  return { c with pheromone := p }

def step (c : AntSystem γ α) : Except Fault (AntSystem γ α × Option (Error α)) := do
  match ← performAll (schedule c.distances.cities c.ants.length) c with
  | (c, some e) => return ({ c with progress := c.progress.abort e }, some e)
  | (c, none) =>
    let c ← c.offerLeader
    let c ← renewTrail c
    return ({ c with progress := c.progress.advance }, none)

def steps : Nat → AntSystem γ α → Except Fault (AntSystem γ α × Option (Error α))
  | 0, c => .ok (c, none)
  | n + 1, c => do
    match ← step c with
    | (c, some e) => return (c, some e)
    | (c, none) => steps n c

def run (c : AntSystem γ α) : Except Fault (AntSystem γ α × Option (Error α)) := do
  match ← steps c.config.maxGenerations c with
  | (c, some e) => return (c, some e)
  | (c, none) => return ({ c with progress := c.progress.finish }, none)

def seeded (d : Distances Float) (config : Config Float) :
    Except (Rejection Float) (AntSystem Generator Float) :=
  start d config (Generator.ofSeed config.seed)

end AntSystem
end PopulationSearch
