import PopulationSearch.Colony.Pheromone
import PopulationSearch.Tour.Walk

/-! How an ant chooses its next city: a position among the unvisited ones, in ascending order. -/

namespace PopulationSearch.Colony

variable {γ α : Type} [Scalar α]

def weights (p : Pheromone α) (v : Grid α) (ant : Walk α) : Except Fault (List α) := do
  let here ← ant.current
  ant.unvisited.mapM fun there => do
    let level ← p.get here there
    let visible ← v.get here there
    return level * visible

/-- With probability `q0`, and if the weights are too large for a wheel, the heaviest city. -/
def chooseOrExploit [Source γ α] (p : Pheromone α) (v : Grid α) (q0 : α) (ant : Walk α) :
    Draw γ Nat := do
  let ws ← weights p v ant
  let q ← Draw.unit
  if q ≤ q0 then return Wheel.heaviest ws
  let s ← Draw.unit
  if Scalar.isFinite (Scalar.sum ws) then return Wheel.roulette ws s
  return Wheel.heaviest ws

def wheelWeights [Power α] (p : Pheromone α) (v : Grid α) (alpha : α) (ant : Walk α) :
    Except (Failure α) (List α) := do
  let here ← ant.current
  let ws ← ant.unvisited.mapM fun there => show Except (Failure α) α from do
    let level ← p.get here there
    let visible ← v.get here there
    let weight := Power.power level alpha * visible
    if weight == 0 then throw (.invalid (.zeroWeight here there))
    unless Scalar.isFinite weight do throw (.invalid (.nonFiniteWeight here there))
    return weight
  unless Scalar.isFinite (Scalar.sum ws) do
    let there ← demand ant.unvisited[Wheel.heaviest ws]?
    throw (.invalid (.nonFiniteWeight here there))
  return ws

/-- Nothing is drawn unless the weights make a wheel. -/
def choose [Power α] [Source γ α] (p : Pheromone α) (v : Grid α) (alpha : α) (ant : Walk α)
    (g : γ) : Except (Failure α) (Nat × γ) := do
  let ws ← wheelWeights p v alpha ant
  let (s, g) ← Draw.unit.run g
  return (Wheel.roulette ws s, g)

end PopulationSearch.Colony
