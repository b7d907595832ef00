import PopulationSearch.Tour.Basic
import PopulationSearch.Wheel

/-! Tours under construction. The cities ahead are kept in ascending order. -/

namespace PopulationSearch

structure Walk (α : Type) where
  tour : List Nat
  unvisited : List Nat
  length : α

namespace Walk

variable {α : Type} [Scalar α]

def idle : Walk α := ⟨[], [], 0⟩

def placed (n start : Nat) : Walk α := ⟨[start], (List.range n).filter (· != start), 0⟩

def current (w : Walk α) : Except Fault Nat := demand w.tour.getLast?

def advance (d : Distances α) (position : Nat) (w : Walk α) : Except Fault (Walk α) := do
  let here ← w.current
  let there ← demand w.unvisited[position]?
  let step ← d.distance here there
  return ⟨w.tour ++ [there], w.unvisited.eraseIdx position, w.length + step⟩

def close (d : Distances α) (w : Walk α) : Except Fault (Walk α) := do
  let here ← w.current
  let start ← demand w.tour.head?
  let step ← d.distance here start
  return ⟨w.tour ++ [start], w.unvisited, w.length + step⟩

def lastLeg? (w : Walk α) : Option (Nat × Nat) := (Tour.legs w.tour).getLast?

def advanceNearest (d : Distances α) (w : Walk α) : Except Fault (Walk α) := do
  let here ← w.current
  let steps ← w.unvisited.mapM fun there => d.distance here there
  w.advance d (leaderIndex (fun a b => a < b) steps)

def nearestFrom (d : Distances α) (start : Nat) : Except Fault (Walk α) := do
  unless start < d.cities do throw (.badStart start d.cities)
  let w ← iterate (d.cities - 1) (advanceNearest d) (placed d.cities start)
  w.close d

def nearest {γ : Type} [Source γ α] (d : Distances α) : Draw γ (Walk α) := do
  let start ← Draw.below d.cities
  nearestFrom d start

end Walk
end PopulationSearch
