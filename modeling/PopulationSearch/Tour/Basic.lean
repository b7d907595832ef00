import PopulationSearch.Grid
import PopulationSearch.Number.Scalar

/-! Distances between cities, and tours by their lengths. A closed tour ends where it began; of a
cyclic one the way back is implied. -/

namespace PopulationSearch

/-- Distances between the cities below `cities`, possibly different in the two directions. -/
structure Distances (α : Type) where
  cities : Nat
  distance : Nat → Nat → Except Fault α

structure DistanceTable (α : Type) where
  grid : Grid α

namespace DistanceTable

variable {α : Type} [Scalar α]

def isBad (i j : Nat) (value : α) : Bool :=
  !Scalar.isFinite value || value < 0 || (i == j && value != 0)

def checkRow (n i : Nat) (row : List α) : Except (Error α) Unit :=
  if row.length ≠ n then .error (.notSquare i row.length n)
  else
    match row.zipIdx.find? fun entry => isBad i entry.2 entry.1 with
    | some (value, j) => .error (.invalidDistance i j value)
    | none => .ok ()

def ofRows (rows : List (List α)) : Except (Error α) (DistanceTable α) := do
  if rows.isEmpty then throw .emptyProblem
  rows.zipIdx.forM fun row => checkRow rows.length row.2 row.1
  return ⟨⟨rows.length, rows.flatten.toArray⟩⟩

def ofPoints (points : List (Float × Float)) : Except (Error Float) (DistanceTable Float) :=
  ofRows (points.map fun p => points.map fun q => Binary64.norm (p.1 - q.1) (p.2 - q.2))

def toDistances (t : DistanceTable α) : Distances α := ⟨t.grid.size, t.grid.get⟩

end DistanceTable

def Distances.validate {α : Type} [Scalar α] (d : Distances α) : Except (Failure α) Unit := do
  if d.cities = 0 then throw (.invalid .emptyProblem)
  if d.cities < 2 then throw (.invalid (.tooFewCities 2 d.cities))
  (Grid.offDiagonal d.cities).forM fun edge => do
    let value ← d.distance edge.1 edge.2
    unless 0 < value ∧ Scalar.isFinite value do
      throw (.invalid (.nonPositiveDistance edge.1 edge.2 value))

namespace Tour

variable {α : Type} [Scalar α]

def legs (tour : List Nat) : List (Nat × Nat) := tour.zip tour.tail

def closedLength (d : Distances α) (tour : List Nat) : Except Fault α := do
  let steps ← (legs tour).mapM fun leg => d.distance leg.1 leg.2
  return Scalar.sum steps

def cyclicLength (d : Distances α) (cities : List Nat) : Except Fault α :=
  match cities.head?, cities.getLast? with
  | some first, some last => do
    let there ← closedLength d cities
    let back ← d.distance last first
    return there + back
  | _, _ => .ok 0

def close (cities : List Nat) : List Nat := cities ++ cities.head?.toList

def tickOff (n : Nat) : List Nat → Array Bool → Except Fault Bool
  | [], _ => .ok true
  | city :: cities, seen =>
    if n ≤ city then .ok false
    else do
      if ← demand seen[city]? then return false
      tickOff n cities (seen.setIfInBounds city true)

def isPermutation (cities : List Nat) (n : Nat) : Except Fault Bool :=
  if cities.length ≠ n then .ok false else tickOff n cities (Array.replicate n false)

end Tour
end PopulationSearch
