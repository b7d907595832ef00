import PopulationSearch.Grid
import PopulationSearch.Tour.Basic

/-! The trail of a colony: a level for every directed edge, and the rules that change it. -/

namespace PopulationSearch

abbrev Pheromone (α : Type) := Grid α

namespace Pheromone

variable {α : Type} [Scalar α]

/-- The level between `level` and `goal`, at the share `rate` of the way. -/
def blend (rate goal level : α) : α := (1 - rate) * level + rate * goal

def localUpdate (rho trail : α) (i j : Nat) (p : Pheromone α) : Except Fault (Pheromone α) :=
  p.modify i j (blend rho trail)

def reinforce (alpha goal : α) (i j : Nat) (p : Pheromone α) : Except Fault (Pheromone α) :=
  p.modify i j (blend alpha goal)

def evaporate (rho floor : α) (p : Pheromone α) : Pheromone α :=
  p.map fun level => Scalar.larger ((1 - rho) * level) floor

def deposit (amount : α) (i j : Nat) (p : Pheromone α) : Except Fault (Pheromone α) :=
  p.modify i j (· + amount)

def along (rule : Nat → Nat → Pheromone α → Except Fault (Pheromone α)) (tour : List Nat)
    (p : Pheromone α) : Except Fault (Pheromone α) :=
  (Tour.legs tour).foldlM (fun p leg => rule leg.1 leg.2 p) p

end Pheromone

def Distances.visibility {α : Type} [Scalar α] [Power α] (d : Distances α) (beta : α) :
    Except (Failure α) (Grid α) :=
  Grid.build d.cities fun i j => do
    if i = j then return 0
    let value ← d.distance i j
    let visible := Power.power value (-beta)
    unless Scalar.isFinite visible do throw (.invalid (.nonFiniteWeight i j))
    return visible

end PopulationSearch
