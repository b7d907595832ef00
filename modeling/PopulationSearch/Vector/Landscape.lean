import PopulationSearch.Chance.Source

/-! Boxes of vectors, and the objectives to search in them. -/

namespace PopulationSearch

structure Bounds (α : Type) where
  lower : List α
  upper : List α

namespace Bounds

variable {α : Type} [Scalar α]

def dimension (b : Bounds α) : Nat := b.lower.length

def intervals (b : Bounds α) : List (α × α) := b.lower.zip b.upper

/-- Bounds are sound if there are as many lower as upper ones, at least one of each, and every
interval between them is. -/
def validate (b : Bounds α) : Except (Error α) Unit :=
  if b.lower.length ≠ b.upper.length then
    .error (.dimensionMismatch b.lower.length b.upper.length)
  else if b.lower.isEmpty then .error .emptyProblem
  else
    match b.intervals.zipIdx.find? fun entry => !Interval.isSound entry.1.1 entry.1.2 with
    | some ((lo, hi), dimension) => .error (.invalidBounds dimension lo hi)
    | none => .ok ()

def ofLists (lower upper : List α) : Except (Error α) (Bounds α) := do
  let b : Bounds α := ⟨lower, upper⟩
  b.validate
  return b

def uniform (dimension : Nat) (lo hi : α) : Except (Error α) (Bounds α) :=
  ofLists (List.replicate dimension lo) (List.replicate dimension hi)

def contains (b : Bounds α) (x : List α) : Bool :=
  x.length == b.dimension &&
    (x.zip b.intervals).all fun entry => Interval.contains entry.2.1 entry.2.2 entry.1

def sample {γ : Type} [Source γ α] (b : Bounds α) : Draw γ (List α) :=
  b.intervals.mapM fun interval => Draw.uniform interval.1 interval.2

end Bounds

inductive Direction where
  | minimize | maximize
  deriving DecidableEq, Repr

namespace Direction

def isFitter {α : Type} [Scalar α] : Direction → α → α → Bool
  | minimize, a, b => a < b
  | maximize, a, b => b < a

instance : Inhabited Direction := ⟨minimize⟩

def name : Direction → String
  | minimize => "min"
  | maximize => "max"

end Direction

structure Objective (α : Type) where
  bounds : Bounds α
  dimension : Nat
  direction : Direction
  isFitter : α → α → Bool
  evaluate : List α → Except Fault α

namespace Objective

variable {α : Type} [Scalar α]

def ofFunction (bounds : Bounds α) (direction : Direction) (f : List α → Except Fault α) :
    Objective α where
  bounds := bounds
  dimension := bounds.dimension
  direction := direction
  isFitter := direction.isFitter
  evaluate := f

def minimizing (bounds : Bounds α) (f : List α → Except Fault α) : Objective α :=
  ofFunction bounds .minimize f

def maximizing (bounds : Bounds α) (f : List α → Except Fault α) : Objective α :=
  ofFunction bounds .maximize f

def validate (o : Objective α) : Except (Error α) Unit := do
  o.bounds.validate
  if o.dimension ≠ o.bounds.dimension then
    throw (.dimensionMismatch o.dimension o.bounds.dimension)

end Objective

namespace Landscape

def sphere {α : Type} [Scalar α] (bounds : Bounds α) : Objective α :=
  .minimizing bounds fun x => .ok (Scalar.sum (x.map fun v => v * v))

def pi : Float := Float.ofBits 0x400921FB54442D18

def euler : Float := Float.ofBits 0x4005BF0A8B145769

def ackleyValue (x : List Float) : Float :=
  let dimension := Scalar.count x.length
  let squares := x.foldl (fun s v => s + v * v) 0
  let cosines := x.foldl (fun s v => s + Float.cos (2 * pi * v)) 0
  let funnel := -20 * Float.exp (-0.2 * Float.sqrt (squares / dimension))
  funnel - Float.exp (cosines / dimension) + 20 + euler

def ackley (bounds : Bounds Float) (direction : Direction) : Objective Float :=
  .ofFunction bounds direction fun x => .ok (ackleyValue x)

end Landscape
end PopulationSearch
