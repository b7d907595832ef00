import PopulationSearch.Chance.Source

/-! Partially mapped crossover, and mutation by exchanging two places. -/

namespace PopulationSearch.Genetic

/-- Pairs of a value that entered a segment and the value that it displaced there, latest first. -/
structure Mapping where
  size : Nat
  pairs : List (Nat × Nat)
  deriving DecidableEq, Repr

namespace Mapping

def ofSegments (incoming displaced : List Nat) (n : Nat) : Except Fault Mapping :=
  let pairs := (incoming.zip displaced).filter fun p => p.1 != p.2
  if pairs.all fun p => p.1 < n then .ok ⟨n, pairs.reverse⟩ else .error .undefined

def image? (m : Mapping) (value : Nat) : Except Fault (Option Nat) :=
  if value < m.size then .ok (m.pairs.lookup value) else .error .undefined

def follow (m : Mapping) : Nat → Nat → Except Fault Nat
  | 0, value => .ok value
  | hops + 1, value => do
    match ← m.image? value with
    | some next => follow m hops next
    | none => return value

/-- A chain cannot be longer than there are pairs, so one hop more than that only cuts cycles. -/
def resolve (m : Mapping) (value : Nat) : Except Fault Nat :=
  m.follow (m.pairs.length + 1) value

end Mapping

def segment (first last : Nat) (l : List Nat) : List Nat := (l.drop first).take (last + 1 - first)

/-- The child that gets `donor` inside the segment and, resolved, `parent` outside. -/
def offspring (m : Mapping) (parent donor : List Nat) (first last : Nat) :
    Except Fault (List Nat) :=
  (parent.zip donor).zipIdx.mapM fun gene =>
    if first ≤ gene.2 ∧ gene.2 ≤ last then .ok gene.1.2 else m.resolve gene.1.1

def crossoverAt (parent₁ parent₂ : List Nat) (first last : Nat) :
    Except Fault (List Nat × List Nat) := do
  if parent₁.length ≠ parent₂.length then throw .unequalParents
  if parent₁.length = 0 then throw .noParents
  unless first ≤ last ∧ last < parent₁.length do throw (.badSegment first last parent₁.length)
  let segment₁ := segment first last parent₁
  let segment₂ := segment first last parent₂
  let toParent₁ ← Mapping.ofSegments segment₂ segment₁ parent₁.length
  let toParent₂ ← Mapping.ofSegments segment₁ segment₂ parent₁.length
  let child₁ ← offspring toParent₁ parent₁ parent₂ first last
  let child₂ ← offspring toParent₂ parent₂ parent₁ first last
  return (child₁, child₂)

variable {γ α : Type} [Source γ α]

def randomSegment (n : Nat) : Draw γ (Nat × Nat) := do
  let a ← Draw.below n
  let b ← Draw.below n
  return if a ≤ b then (a, b) else (b, a)

def crossover (parent₁ parent₂ : List Nat) : Draw γ (List Nat × List Nat) := do
  if parent₁.length = 0 then throw .noParents
  let (first, last) ← randomSegment parent₁.length
  crossoverAt parent₁ parent₂ first last

def otherPlace (first drawn : Nat) : Nat := if first ≤ drawn then drawn + 1 else drawn

def exchange (i j : Nat) (l : List Nat) : Except Fault (List Nat) := do
  let x ← demand l[i]?
  let y ← demand l[j]?
  return (l.set i y).set j x

def swapMutation (l : List Nat) : Draw γ (List Nat) := do
  if l.length < 2 then return l
  let i ← Draw.below l.length
  let drawn ← Draw.below (l.length - 1)
  exchange i (otherPlace i drawn) l

end PopulationSearch.Genetic
