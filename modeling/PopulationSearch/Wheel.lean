import PopulationSearch.Chance.Source

/-! Choices from a list. A leader is held on to until a later element beats it. Where rounding
leaves a wheel short of a draw, the last sector wins. -/

namespace PopulationSearch

section
variable {β : Type}

/-- The leader of a list and its position. -/
def leader? (beats : β → β → Bool) : List β → Option (Nat × β)
  | [] => none
  | x :: xs => some (go 1 0 x xs)
where
  go (position held : Nat) (holder : β) : List β → Nat × β
    | [] => (held, holder)
    | x :: xs =>
      if beats x holder then go (position + 1) position x xs
      else go (position + 1) held holder xs

def leaderIndex (beats : β → β → Bool) (l : List β) : Nat :=
  ((leader? beats l).map Prod.fst).getD 0

end

namespace Wheel

variable {α : Type} [Scalar α]

def cumulative (weights : List α) : List α :=
  go (Scalar.sum weights) 0 weights
where
  go (total reached : α) : List α → List α
    | [] => []
    | w :: ws => (reached + w / total) :: go total (reached + w / total) ws

def firstOrLast (passes : α → Bool) (wheel : List α) : Nat :=
  (wheel.findIdx? passes).getD (wheel.length - 1)

/-- The sector that ends beyond `r`, where a sector holds its beginning and not its end. -/
def spin (wheel : List α) (r : α) : Nat := firstOrLast (fun stop => r < stop) wheel

/-- The sector that reaches `s`, where a sector holds its end and not its beginning. -/
def roulette (weights : List α) (s : α) : Nat :=
  firstOrLast (fun stop => s ≤ stop) (cumulative weights)

def heaviest (weights : List α) : Nat := leaderIndex (fun a b => b < a) weights

def select {γ : Type} [Source γ α] (fitness : List α) (amount : Nat) : Draw γ (List Nat) := do
  if fitness.isEmpty then throw .emptyPopulation
  let wheel := cumulative fitness
  Draw.times amount do
    let r ← Draw.unit
    return spin wheel r

end Wheel
end PopulationSearch
