import PopulationSearch.Error

/-! Square tables in one flat array. Only positions beyond the array are refused: a column number
past the end of its row reaches into the rows below. -/

namespace PopulationSearch

structure Grid (α : Type) where
  size : Nat
  cells : Array α
  deriving BEq

namespace Grid

variable {α : Type}

def uniform (n : Nat) (x : α) : Grid α := ⟨n, Array.replicate (n * n) x⟩

def flat (g : Grid α) (i j : Nat) : Nat := i * g.size + j

def get (g : Grid α) (i j : Nat) : Except Fault α := demand g.cells[g.flat i j]?

def modify (g : Grid α) (i j : Nat) (f : α → α) : Except Fault (Grid α) :=
  if g.flat i j < g.cells.size then .ok { g with cells := g.cells.modify (g.flat i j) f }
  else .error .undefined

def map (f : α → α) (g : Grid α) : Grid α := { g with cells := g.cells.map f }

def positions (n : Nat) : List (Nat × Nat) :=
  (List.range n).flatMap fun i => (List.range n).map fun j => (i, j)

def offDiagonal (n : Nat) : List (Nat × Nat) := (positions n).filter fun p => p.1 != p.2

def build {ε : Type} (n : Nat) (entry : Nat → Nat → Except ε α) : Except ε (Grid α) := do
  let cells ← (positions n).mapM fun p => entry p.1 p.2
  return ⟨n, cells.toArray⟩

def toRows (g : Grid α) : List (List α) :=
  (List.range g.size).map fun i => (g.cells.toList.drop (i * g.size)).take g.size

end Grid
end PopulationSearch
