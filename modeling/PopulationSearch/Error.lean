import PopulationSearch.Number.Decimal

/-! An `Error` is a refusal that the caller can act on, a `Fault` a broken precondition. -/

namespace PopulationSearch

inductive Parameter where
  | numAnts | populationSize | swarmSize | maxGenerations
  | alpha | beta | q0 | rho
  | crossoverRate | mutationRate | greedyRatio
  | f | cr
  | c1 | c2 | w | vmaxPercent
  deriving DecidableEq, Repr

def Parameter.name : Parameter → String
  | numAnts => "num_ants"
  | populationSize => "population_size"
  | swarmSize => "swarm_size"
  | maxGenerations => "max_generations"
  | alpha => "alpha"
  | beta => "beta"
  | q0 => "q0"
  | rho => "rho"
  | crossoverRate => "crossover_rate"
  | mutationRate => "mutation_rate"
  | greedyRatio => "greedy_ratio"
  | f => "f"
  | cr => "cr"
  | c1 => "c1"
  | c2 => "c2"
  | w => "w"
  | vmaxPercent => "vmax_percent"

inductive ConfigError (α : Type) where
  | tooSmall (parameter : Parameter) (least : Nat)
  | tooSmallGot (parameter : Parameter) (least given : Nat)
  | notFinite (parameter : Parameter) (value : α)
  | notNonnegative (parameter : Parameter) (value : α)
  | notRate (parameter : Parameter) (value : α)
  | notShare (parameter : Parameter) (value : α)
  | stated (text : String)
  deriving BEq

def ConfigError.message : ConfigError Float → String
  | tooSmall parameter least => s!"{parameter.name} must be at least {least}"
  | tooSmallGot parameter least given =>
    s!"{parameter.name} must be at least {least}, got {given}"
  | notFinite parameter value => parameter.name ++ " must be finite, got " ++ Decimal.text value
  | notNonnegative parameter value =>
    parameter.name ++ " must be finite and non-negative, got " ++ Decimal.text value
  | notRate parameter value => parameter.name ++ " must be in [0, 1], got " ++ Decimal.text value
  | notShare parameter value => parameter.name ++ " must be in (0, 1], got " ++ Decimal.text value
  | stated text => text

inductive Error (α : Type) where
  | emptyProblem
  | notSquare (row length expected : Nat)
  | invalidDistance (source target : Nat) (value : α)
  | nonPositiveDistance (source target : Nat) (value : α)
  | tooFewCities (required actual : Nat)
  | dimensionMismatch (lower upper : Nat)
  | invalidBounds (dimension : Nat) (lower upper : α)
  | invalidConfig (cause : ConfigError α)
  | zeroWeight (source target : Nat)
  | nonFiniteWeight (source target : Nat)
  deriving BEq

def Error.message : Error Float → String
  | emptyProblem => "problem must not be empty"
  | notSquare row length expected =>
    s!"distance matrix must be square: row {row} has {length} entries, expected {expected}"
  | invalidDistance source target value =>
    "invalid distance " ++ Decimal.text value ++ s!" from city {source} to city {target}"
  | nonPositiveDistance source target value =>
    s!"distance from city {source} to city {target} must be positive, got " ++ Decimal.text value
  | tooFewCities required actual => s!"at least {required} cities required, got {actual}"
  | dimensionMismatch lower upper =>
    s!"bounds dimension mismatch: {lower} lower bounds, {upper} upper bounds"
  | invalidBounds dimension lower upper =>
    s!"invalid bounds in dimension {dimension}: [" ++ Decimal.text lower ++ ", "
      ++ Decimal.text upper ++ "]"
  | invalidConfig cause => "invalid configuration: " ++ cause.message
  | zeroWeight source target => s!"zero selection weight on edge {source} -> {target}"
  | nonFiniteWeight source target =>
    s!"selection weight on edge {source} -> {target} is not finite"

inductive Fault where
  /-- A look-up, a draw or a clamp has no answer. -/
  | undefined
  | unequalParents
  | noParents
  | badSegment (first last length : Nat)
  | badStart (start cities : Nat)
  | emptyPopulation
  deriving DecidableEq, Repr

def Fault.message? : Fault → Option String
  | undefined => none
  | unequalParents => some "parents must have equal length"
  | noParents => some "parents must not be empty"
  | badSegment first last length =>
    some s!"invalid segment [{first}, {last}] for length {length}"
  | badStart start cities => some s!"start city {start} out of range for {cities} cities"
  | emptyPopulation => some "cannot select from empty population"

inductive Failure (α : Type) where
  | invalid (error : Error α)
  | fault (fault : Fault)

instance {α : Type} : MonadLift (Except Fault) (Except (Failure α)) where
  monadLift
    | .ok x => .ok x
    | .error f => .error (.fault f)

instance {α : Type} : MonadLift (Except (Error α)) (Except (Failure α)) where
  monadLift
    | .ok x => .ok x
    | .error e => .error (.invalid e)

def demand {β : Type} : Option β → Except Fault β
  | some x => .ok x
  | none => .error .undefined

section
variable {ε β : Type}

def iterate : Nat → (β → Except ε β) → β → Except ε β
  | 0, _, x => .ok x
  | n + 1, step, x => do
    let y ← step x
    iterate n step y

theorem iterate_succ (n : Nat) (step : β → Except ε β) (x : β) :
    iterate (n + 1) step x = step x >>= iterate n step := rfl

end
end PopulationSearch
