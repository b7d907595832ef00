import PopulationSearch.Number.Scalar

/-! Random decisions. A `Draw` is a computation that draws from a source and may fault. -/

namespace PopulationSearch

/-- A draw returns its outcome and the source after it. Units come from a half-open interval, and
`between` draws from a closed one. -/
class Source (γ : Type) (α : outParam Type) where
  index : Nat → γ → Nat × γ
  unit : γ → α × γ
  between : α → α → γ → α × γ
  shuffle : List Nat → γ → List Nat × γ
  sample : Nat → Nat → γ → List Nat × γ

abbrev Draw (γ : Type) := StateT γ (Except Fault)

namespace Draw

variable {γ α : Type} [Source γ α]

def below (n : Nat) : Draw γ Nat := fun g =>
  if n = 0 then .error .undefined else .ok (Source.index n g)

def unit : Draw γ α := fun g => .ok (Source.unit g)

def shuffle (l : List Nat) : Draw γ (List Nat) := fun g => .ok (Source.shuffle l g)

def sample (n amount : Nat) : Draw γ (List Nat) := fun g =>
  if n < amount then .error .undefined else .ok (Source.sample n amount g)

def between [Scalar α] (lo hi : α) : Draw γ α := fun g =>
  if lo < hi ∧ Scalar.isFinite (hi - lo) then .ok (Source.between lo hi g) else .error .undefined

/-- A single point is returned without a draw, and an interval too wide to have a finite width is
drawn from as a mixture of its ends. -/
def uniform [Scalar α] (lo hi : α) : Draw γ α :=
  if hi ≤ lo then pure lo
  else if Scalar.isFinite (hi - lo) then between lo hi
  else do
    let t ← unit
    Interval.clamp lo hi ((1 - t) * lo + t * hi)

def times {β : Type} : Nat → Draw γ β → Draw γ (List β)
  | 0, _ => pure []
  | n + 1, draw => do
    let x ← draw
    let xs ← times n draw
    return x :: xs

end Draw
end PopulationSearch
