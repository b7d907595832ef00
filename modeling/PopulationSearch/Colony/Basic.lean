import PopulationSearch.Colony.Choice
import PopulationSearch.Progress

/-! Colonies of ants that build tours side by side, one act at a time. -/

namespace PopulationSearch

/-- The parameters of the colony are in `κ`. -/
structure Colony (κ γ α : Type) where
  config : κ
  distances : Distances α
  visibility : Grid α
  initialTrail : α
  pheromone : Pheromone α
  ants : List (Walk α)
  source : γ
  progress : Progress (List Nat) α

namespace Colony

variable {κ γ α : Type} [Scalar α] [Power α] [Source γ α]

/-- The length of a nearest-neighbour tour fixes the initial trail. The tour has been logged by the
time the visibilities are computed. -/
def start (config : κ) (numAnts : Nat) (beta : α) (trailOf : α → α) (d : Distances α) (g : γ) :
    Except (Rejection α) (Colony κ γ α) := do
  d.validate
  let (walk, g) ← (Walk.nearest d).run g
  let trail := trailOf walk.length
  let event := Event.trailSeeded walk.length trail
  match d.visibility beta with
  | .error failure => throw ⟨failure, [event]⟩
  | .ok visible =>
    return {
      config := config
      distances := d
      visibility := visible
      initialTrail := trail
      pheromone := Grid.uniform d.cities trail
      ants := List.replicate numAnts Walk.idle
      source := g
      progress := Progress.start ⟨walk.tour, walk.length⟩ event }

omit [Power α] in
def place (k : Nat) (c : Colony κ γ α) : Except Fault (Colony κ γ α) := do
  let (city, g) ← (Draw.below c.distances.cities).run c.source
  return { c with ants := c.ants.set k (Walk.placed c.distances.cities city), source := g }

omit [Power α] [Source γ α] in
def advance (k position : Nat) (g : γ) (c : Colony κ γ α) : Except Fault (Colony κ γ α) := do
  let ant ← demand c.ants[k]?
  let ant ← ant.advance c.distances position
  return { c with ants := c.ants.set k ant, source := g }

omit [Power α] [Source γ α] in
def close (k : Nat) (c : Colony κ γ α) : Except Fault (Colony κ γ α) := do
  let ant ← demand c.ants[k]?
  let ant ← ant.close c.distances
  return { c with ants := c.ants.set k ant }

omit [Power α] [Source γ α] in
def offerLeader (c : Colony κ γ α) : Except Fault (Colony κ γ α) := do
  let (_, ant) ← demand (leader? (fun a b => a.length < b.length) c.ants)
  return { c with
    progress := c.progress.offer (fun a b => a < b) ant.tour ant.length }

end Colony
end PopulationSearch
