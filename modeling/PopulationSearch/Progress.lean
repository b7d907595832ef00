import PopulationSearch.Number.Scalar

/-! What every search keeps about its run. Best, generation, history and log change together and
only here. -/

namespace PopulationSearch

structure Best (σ α : Type) where
  solution : σ
  quality : α

def Best.offer {σ α : Type} (fitter : α → α → Bool) (candidate : σ) (quality : α)
    (b : Best σ α) : Best σ α :=
  if fitter quality b.quality then ⟨candidate, quality⟩ else b

inductive Event (α : Type) where
  | trailSeeded (length trail : α)
  | populated (greedy : Nat) (best : α)
  | scattered (best : α)
  | generation (index : Nat) (best : α)
  | complete (generations : Nat) (best : α)
  | aborted (error : Error α) (generation : Nat)

structure Rejection (α : Type) where
  failure : Failure α
  log : List (Event α)

instance {α : Type} : MonadLift (Except (Failure α)) (Except (Rejection α)) where
  monadLift
    | .ok x => .ok x
    | .error f => .error ⟨f, []⟩

structure Progress (σ α : Type) where
  best : Best σ α
  generation : Nat
  history : List α
  log : List (Event α)

namespace Progress

variable {σ α : Type}

def start (best : Best σ α) (event : Event α) : Progress σ α :=
  ⟨best, 0, [best.quality], [event]⟩

def offer (fitter : α → α → Bool) (candidate : σ) (quality : α) (p : Progress σ α) :
    Progress σ α :=
  { p with best := p.best.offer fitter candidate quality }

def advance (p : Progress σ α) : Progress σ α where
  best := p.best
  generation := p.generation + 1
  history := p.history ++ [p.best.quality]
  log := p.log ++ [.generation (p.generation + 1) p.best.quality]

def finish (p : Progress σ α) : Progress σ α :=
  { p with log := p.log ++ [.complete p.generation p.best.quality] }

def abort (error : Error α) (p : Progress σ α) : Progress σ α :=
  { p with log := p.log ++ [.aborted error p.generation] }

end Progress

inductive Algorithm where
  | colonySystem | antSystem | genetic | differential | swarm
  deriving DecidableEq, Repr

namespace Algorithm

def label : Algorithm → String
  | colonySystem => "acs"
  | antSystem => "ant system"
  | genetic => "ga"
  | differential => "de"
  | swarm => "pso"

def qualityName : Algorithm → String
  | colonySystem | antSystem | genetic => "best_length"
  | differential | swarm => "best_value"

def startName : Algorithm → String
  | colonySystem | antSystem => "nearest-neighbor seed"
  | genetic | differential => "initial population"
  | swarm => "initial swarm"

end Algorithm

inductive Level where
  | debug | info | warn
  deriving DecidableEq, Repr

def Level.name : Level → String
  | debug => "DEBUG"
  | info => "INFO"
  | warn => "WARN"

inductive FieldValue (α : Type) where
  | whole (n : Nat)
  | number (x : α)
  | text (s : String)

structure Record (α : Type) where
  level : Level
  message : String
  fields : List (String × FieldValue α)

def Event.record (algorithm : Algorithm) : Event Float → Record Float
  | trailSeeded length trail =>
    ⟨.debug, algorithm.label ++ " " ++ algorithm.startName,
      [("length", .number length), ("tao0", .number trail)]⟩
  | populated greedy best =>
    ⟨.debug, algorithm.label ++ " " ++ algorithm.startName,
      [("greedy", .whole greedy), (algorithm.qualityName, .number best)]⟩
  | scattered best =>
    ⟨.debug, algorithm.label ++ " " ++ algorithm.startName,
      [(algorithm.qualityName, .number best)]⟩
  | generation index best =>
    ⟨.debug, algorithm.label ++ " generation",
      [("generation", .whole index), (algorithm.qualityName, .number best)]⟩
  | complete generations best =>
    ⟨.info, algorithm.label ++ " run complete",
      [("generations", .whole generations), (algorithm.qualityName, .number best)]⟩
  | aborted error index =>
    ⟨.warn, algorithm.label ++ " aborted",
      [("err", .text error.message), ("generation", .whole index)]⟩

end PopulationSearch
