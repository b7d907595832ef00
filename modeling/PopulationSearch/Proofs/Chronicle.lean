import PopulationSearch.Proofs.GivenUp
import PopulationSearch.Proofs.TourOptimum
import PopulationSearch.Proofs.Verdicts

/-! What the log of a search tells, and how it matches the history. -/

namespace PopulationSearch

variable {σ α : Type}

namespace Event

def level : Event α → Level
  | trailSeeded .. | populated .. | scattered .. | generation .. => .debug
  | complete .. => .info
  | aborted .. => .warn

theorem level_record (algorithm : Algorithm) (e : Event Float) :
    (e.record algorithm).level = e.level := by
  cases e <;> rfl

def generations (first : Nat) (qualities : List α) : List (Event α) :=
  (qualities.zipIdx first).map fun entry => .generation entry.2 entry.1

theorem generations_append (first : Nat) (qualities later : List α) :
    generations first (qualities ++ later) =
      generations first qualities ++ generations (first + qualities.length) later := by
  rw [generations, List.zipIdx_append, List.map_append]
  rfl

theorem filter_generations (first : Nat) (qualities : List α) :
    (generations first qualities).filter (·.level = .debug) = generations first qualities := by
  rw [List.filter_eq_self]
  intro e he
  obtain ⟨_, -, rfl⟩ := List.mem_map.mp he
  rfl

end Event

namespace Progress

variable {p p' p'' : Progress σ α} {opening : α → Event α}

/-- The log begins with an event about the first quality, and its debugging events are that one and
then one for each generation. -/
def Told (opening : α → Event α) (p : Progress σ α) : Prop :=
  ∃ quality later, p.history = quality :: later ∧ later.length = p.generation ∧
    p.log.head? = some (opening quality) ∧
    p.log.filter (·.level = .debug) = opening quality :: Event.generations 1 later

theorem told_start (opening : α → Event α) (best : Best σ α)
    (h : (opening best.quality).level = .debug) :
    (start best (opening best.quality)).Told opening :=
  ⟨best.quality, [], rfl, rfl, rfl, by simp [start, h, Event.generations]⟩

structure Adds (qualities : List α) (ending : List (Event α)) (p p' : Progress σ α) : Prop where
  generation : p'.generation = p.generation + qualities.length
  history : p'.history = p.history ++ qualities
  log : p'.log = p.log ++ Event.generations (p.generation + 1) qualities ++ ending

theorem adds_nothing (p : Progress σ α) : p.Adds [] [] p :=
  ⟨rfl, (List.append_nil _).symm, by simp [Event.generations]⟩

theorem adds_advance (best : Best σ α) :
    p.Adds [best.quality] [] ({ p with best := best } : Progress σ α).advance :=
  ⟨rfl, rfl, (List.append_nil _).symm⟩

theorem exists_adds {best : Best σ α} (h : p' = ({ p with best := best } : Progress σ α).advance) :
    ∃ quality, p.Adds [quality] [] p' :=
  ⟨best.quality, h ▸ adds_advance best⟩

theorem adds_finish (p : Progress σ α) :
    p.Adds [] [.complete p.generation p.best.quality] p.finish :=
  ⟨rfl, (List.append_nil _).symm, by simp [finish, Event.generations]⟩

theorem adds_abort (e : Error α) (p : Progress σ α) :
    p.Adds [] [.aborted e p.generation] (p.abort e) :=
  ⟨rfl, (List.append_nil _).symm, by simp [abort, Event.generations]⟩

theorem Adds.trans {qualities later : List α} {ending : List (Event α)}
    (h : p.Adds qualities [] p') (h' : p'.Adds later ending p'') :
    p.Adds (qualities ++ later) ending p'' where
  generation := by rw [h'.generation, h.generation, List.length_append, Nat.add_assoc]
  history := by rw [h'.history, h.history, List.append_assoc]
  log := by
    rw [h'.log, h.log, h.generation, Event.generations_append, Nat.add_right_comm]
    simp only [List.append_assoc, List.nil_append]

theorem Adds.finish {qualities : List α} (h : p.Adds qualities [] p') :
    p.Adds qualities [.complete p'.generation p'.best.quality] p'.finish := by
  have hall := h.trans p'.adds_finish
  rwa [List.append_nil] at hall

theorem Told.adds (h : p.Told opening) {qualities : List α} {ending : List (Event α)}
    (hadds : p.Adds qualities ending p') (hending : ∀ e ∈ ending, e.level ≠ .debug) :
    p'.Told opening := by
  obtain ⟨quality, later, hhistory, hlength, hhead, hdebug⟩ := h
  refine ⟨quality, later ++ qualities, ?_, ?_, ?_, ?_⟩
  · rw [hadds.history, hhistory, List.cons_append]
  · rw [hadds.generation, List.length_append, hlength]
  · rw [hadds.log, List.append_assoc, List.head?_append, hhead]
    rfl
  · have hsilent : ending.filter (·.level = .debug) = [] := by
      rw [List.filter_eq_nil_iff]
      exact fun e he => by simpa using hending e he
    rw [hadds.log, List.filter_append, List.filter_append, hdebug, hsilent,
      Event.filter_generations, Event.generations_append, hlength, List.append_nil, Nat.add_comm 1]
    rfl

theorem Told.finish (h : p.Told opening) : p.finish.Told opening :=
  h.adds p.adds_finish (by simp [Event.level])

def Logs (k : Nat) (ending : List (Event α)) (p p' : Progress σ α) : Option (Error α) → Prop
  | none => ∃ qualities, qualities.length = k ∧ p.Adds qualities ending p'
  | some e => ∃ qualities, qualities.length < k ∧ p.Adds qualities [.aborted e p'.generation] p'

theorem Logs.after {first : List α} {k : Nat} {ending : List (Event α)}
    {refusal : Option (Error α)} (h : p'.Logs k ending p'' refusal) (hfirst : p.Adds first [] p') :
    p.Logs (first.length + k) ending p'' refusal := by
  cases refusal with
  | none =>
    obtain ⟨later, rfl, hadds⟩ := h
    exact ⟨first ++ later, List.length_append, hfirst.trans hadds⟩
  | some e =>
    obtain ⟨later, hlength, hadds⟩ := h
    refine ⟨first ++ later, ?_, hfirst.trans hadds⟩
    rw [List.length_append]
    exact Nat.add_lt_add_left hlength _

theorem Told.logs (h : p.Told opening) {k : Nat} {ending : List (Event α)}
    {refusal : Option (Error α)} (hlogs : p.Logs k ending p' refusal)
    (hending : ∀ e ∈ ending, e.level ≠ .debug) : p'.Told opening := by
  cases refusal with
  | none =>
    obtain ⟨_, -, hadds⟩ := hlogs
    exact h.adds hadds hending
  | some e =>
    obtain ⟨_, -, hadds⟩ := hlogs
    exact h.adds hadds (by simp [Event.level])

end Progress

/-- What the log tells so far, what one more generation adds to it, and what a run adds. -/
structure Chronicle {β ρ : Type} (opening : α → Event α) (R : Fault → Prop)
    (progress : β → Progress σ α) (turns : β → Nat) (report : ρ → β × Option (Error α))
    (step run : β → Except Fault ρ) (s : β) : Prop where
  told : (progress s).Told opening
  step : Meets (step s) (fun r =>
    (progress s).Logs 1 [] (progress (report r).1) (report r).2) R
  run : Meets (run s) (fun r =>
    let p' := progress (report r).1
    (progress s).Logs (turns s) [.complete p'.generation p'.best.quality] p' (report r).2) R

section Calls

variable {β : Type} {progress : β → Progress σ α} {I : β → Prop} {R : Fault → Prop}
  {step run : β → Except Fault β} {finish : β → β} {turns : β → Nat} {opening : α → Event α}

theorem iterate_adds
    (hstep : ∀ s, I s → Meets (step s)
      (fun s' => I s' ∧ ∃ quality, (progress s).Adds [quality] [] (progress s')) R)
    (n : Nat) {s : β} (hs : I s) :
    Meets (iterate n step s) (fun s' => I s' ∧
      ∃ qualities, qualities.length = n ∧ (progress s).Adds qualities [] (progress s')) R := by
  induction n generalizing s with
  | zero => exact .pure ⟨hs, [], rfl, Progress.adds_nothing _⟩
  | succ n ih =>
    rw [iterate_succ]
    refine (hstep s hs).bind fun s' ⟨hs', quality, hadds⟩ => ?_
    refine (ih hs').imp fun s'' ⟨hs'', qualities, hlength, hadds'⟩ => ?_
    exact ⟨hs'', quality :: qualities, congrArg (· + 1) hlength, hadds.trans hadds'⟩

theorem chronicle_of_steps
    (hrun : ∀ s, run s = iterate (turns s) step s >>= fun s => pure (finish s))
    (hstep : ∀ s, I s → Meets (step s)
      (fun s' => I s' ∧ ∃ quality, (progress s).Adds [quality] [] (progress s')) R)
    (hfinish : ∀ s, I s → I (finish s))
    (hprogress : ∀ s, progress (finish s) = (progress s).finish)
    {s₀ : β} (h₀ : I s₀) (htold : (progress s₀).Told opening) (calls : List Call) (k : Nat) :
    Meets (afterCalls step run calls s₀ >>= iterate k step)
      (Chronicle opening R progress turns (fun s => (s, none)) step run) R := by
  refine (afterCalls_meets hrun (fun s => I s ∧ (progress s).Told opening) ?_ ?_ calls k
    ⟨h₀, htold⟩).imp ?_
  · rintro s ⟨hs, htold⟩
    exact (hstep s hs).imp fun s' ⟨hs', quality, hadds⟩ => ⟨hs', htold.adds hadds nofun⟩
  · rintro s ⟨hs, htold⟩
    exact ⟨hfinish s hs, (hprogress s).symm ▸ htold.finish⟩
  · rintro s ⟨hs, htold⟩
    refine ⟨htold, ?_, ?_⟩
    · exact (hstep s hs).imp fun s' ⟨_, quality, hadds⟩ => ⟨[quality], rfl, hadds⟩
    · rw [hrun]
      refine (iterate_adds hstep (turns s) hs).bind fun s' ⟨_, qualities, hlength, hadds⟩ => ?_
      refine .pure ⟨qualities, hlength, ?_⟩
      dsimp only
      rw [hprogress]
      exact hadds.finish

end Calls

section Starts

variable {β : Type}

theorem Meets.unlogged (x : Except (Failure α) β) :
    Meets (liftM x : Except (Rejection α) β) (fun _ => True) fun r => r.log = [] := by
  cases x with
  | error f => exact rfl
  | ok y => exact trivial

theorem Meets.unlogged_fault (x : Except Fault β) :
    Meets (liftM x : Except (Rejection α) β) (fun _ => True) fun r => r.log = [] :=
  .unlogged (liftM x : Except (Failure α) β)

end Starts

namespace Colony

variable {κ γ : Type} [Scalar α] [Power α] [Source γ α]

structure Rejected (trailOf : α → α) (d : Distances α) (g : γ) (r : Rejection α) : Prop where
  weighed : ∀ i j, r.failure = .invalid (.nonFiniteWeight i j) →
    ∃ walk g', (Walk.nearest d).run g = .ok (walk, g') ∧
      r.log = [.trailSeeded walk.length (trailOf walk.length)]
  unweighed : (∀ i j, r.failure ≠ .invalid (.nonFiniteWeight i j)) → r.log = []

variable {trailOf : α → α} {d : Distances α} {g : γ}

omit [Power α] in
theorem Rejected.of_unweighed {r : Rejection α} (hlog : r.log = [])
    (h : ∀ i j, r.failure ≠ .invalid (.nonFiniteWeight i j)) : Rejected trailOf d g r :=
  ⟨fun i j hij => absurd hij (h i j), fun _ => hlog⟩

omit [Power α] in
theorem configured_rejected (checked : Except (ConfigError α) Unit) :
    Meets (liftM (Requirement.configured checked) : Except (Rejection α) Unit) (fun _ => True)
      (Rejected trailOf d g) := by
  cases checked with
  | error cause => exact .of_unweighed rfl nofun
  | ok _ => exact trivial

omit [Power α] in
theorem validate_rejected :
    Meets (liftM d.validate : Except (Rejection α) Unit) (fun _ => d.Sound)
      (Rejected trailOf d g) := by
  have hsound := d.validate_meets
  have hheeds := d.validate_heeds
  cases hresult : d.validate with
  | ok _ =>
    rw [hresult] at hsound
    exact hsound
  | error failure =>
    rw [hresult] at hheeds
    refine .of_unweighed rfl fun i j hfailure => ?_
    cases hfailure
    rcases hheeds (.nonFiniteWeight i j) rfl with ⟨-, ⟨⟩⟩ | ⟨-, ⟨-, ⟨⟩⟩ | ⟨-, e, -, x, -, ⟨⟩⟩⟩

theorem start_tells [BoundedIndex γ] (config : κ) (numAnts : Nat) (beta : α) (trailOf : α → α)
    (d : Distances α) (g : γ) :
    Meets (start config numAnts beta trailOf d g)
      (fun c => c.progress.Told fun length => .trailSeeded length (trailOf length))
      (Rejected trailOf d g) := by
  refine validate_rejected.bind fun _ hd => ?_
  obtain ⟨⟨walk, g'⟩, hwalk, -⟩ := Walk.nearest_yields hd g
  rw [hwalk]
  have hsquare := Distances.visibility_meets hd beta (R := fun _ => False)
  have hheeds := d.visibility_heeds beta
  refine Meets.bind (P := fun r => r = (walk, g')) rfl ?_
  rintro _ rfl
  dsimp only
  cases hresult : d.visibility beta with
  | ok visible =>
    exact Progress.told_start (fun length => .trailSeeded length (trailOf length))
      walk.candidate rfl
  | error failure =>
    rw [hresult] at hsquare hheeds
    cases failure with
    | fault f => exact hsquare.elim
    | invalid e =>
      obtain ⟨edge, -, rfl⟩ := hheeds e rfl
      exact ⟨fun _ _ _ => ⟨walk, g', hwalk, rfl⟩, fun h => absurd rfl (h _ _)⟩

end Colony

namespace ColonySystem

variable {γ : Type} [Scalar α] [Source γ α] [BoundedIndex γ] {c₀ : ColonySystem γ α}

def Chronicled (opening : α → Event α) : ColonySystem γ α → Prop :=
  Chronicle opening (fun _ => False) Colony.progress (fun c => c.config.maxGenerations)
    (fun c => (c, none)) step run

theorem start_tells [Power α] (d : Distances α) (config : Config α) (g : γ) :
    let trailOf length := 1 / (Scalar.count d.cities * length)
    Meets (start d config g)
      (fun c => c.progress.Told fun length => .trailSeeded length (trailOf length))
      (Colony.Rejected trailOf d g) :=
  (Colony.configured_rejected config.validate).bind fun _ _ => Colony.start_tells ..

theorem chronicle {opening : α → Event α} (hc₀ : c₀.Sound) (htold : c₀.progress.Told opening)
    (calls : List Call) (k : Nat) : Yields (after calls k c₀) (Chronicled opening) := by
  have hstep : ∀ c : ColonySystem γ α, c.Sound → Meets (step c) (fun c' => c'.Sound ∧
      ∃ quality, c.progress.Adds [quality] [] c'.progress) fun _ => False := by
    intro c hc
    obtain ⟨c', hstep, hcontinues, -⟩ := step_yields hc
    obtain ⟨i, ant, -, hprogress⟩ := step_eq_ok hc hstep
    exact .of_yields ⟨c', hstep, hcontinues.sound, Progress.exists_adds hprogress⟩
  have hfinish : ∀ c : ColonySystem γ α, c.Sound → (finished c).Sound := fun c hc => { hc with }
  exact (chronicle_of_steps (fun _ => rfl) hstep hfinish (fun _ => rfl) hc₀ htold calls k).yields
    fun _ => id

end ColonySystem

namespace AntSystem

variable {γ : Type} [Scalar α] [Power α] [Source γ α] [BoundedIndex γ] {c c₀ : AntSystem γ α}

def Chronicled (opening : α → Event α) : AntSystem γ α → Prop :=
  Chronicle opening (fun _ => False) Colony.progress (fun c => c.config.maxGenerations) id step run

theorem start_tells (d : Distances α) (config : Config α) (g : γ) :
    let trailOf length := Scalar.count config.numAnts / length
    Meets (start d config g)
      (fun c => c.progress.Told fun length => .trailSeeded length (trailOf length))
      (Colony.Rejected trailOf d g) :=
  (Colony.configured_rejected config.validate).bind fun _ _ => Colony.start_tells ..

theorem step_logs (hc : c.Sound) :
    Yields (step c) fun r => r.1.Sound ∧ c.progress.Logs 1 [] r.1.progress r.2 := by
  obtain ⟨⟨c', refusal⟩, hstep, hcontinues, -⟩ := step_yields hc
  refine ⟨_, hstep, hcontinues.sound, ?_⟩
  cases refusal with
  | none =>
    obtain ⟨i, ant, -, hprogress⟩ := step_eq_ok hc hstep
    obtain ⟨quality, hadds⟩ := Progress.exists_adds hprogress
    exact ⟨[quality], rfl, hadds⟩
  | some e =>
    refine ⟨[], Nat.one_pos, ?_⟩
    rw [(givenUp_of_step hc hstep).unchanged]
    exact c.progress.adds_abort e

theorem steps_logs (hc : c.Sound) (k : Nat) :
    Yields (steps k c) fun r => r.1.Sound ∧ c.progress.Logs k [] r.1.progress r.2 := by
  induction k generalizing c with
  | zero => exact .ok ⟨hc, [], rfl, Progress.adds_nothing _⟩
  | succ k ih =>
    obtain ⟨⟨c', refusal⟩, hstep, hc', hlogs⟩ := step_logs hc
    apply Yields.eq_bind hstep
    cases refusal with
    | some e =>
      obtain ⟨qualities, hlength, hadds⟩ := hlogs
      exact .pure ⟨hc', qualities, hlength.trans_le (Nat.le_add_left 1 k), hadds⟩
    | none =>
      obtain ⟨first, hfirst, hadds⟩ := hlogs
      refine (ih hc').mono fun r ⟨hr, hrest⟩ => ⟨hr, ?_⟩
      rw [Nat.add_comm, ← hfirst]
      exact hrest.after hadds

theorem run_logs (hc : c.Sound) :
    Yields (run c) fun r => c.progress.Logs c.config.maxGenerations
      [.complete r.1.progress.generation r.1.progress.best.quality] r.1.progress r.2 := by
  obtain ⟨⟨c', refusal⟩, hsteps, -, hlogs⟩ := steps_logs hc c.config.maxGenerations
  apply Yields.eq_bind hsteps
  cases refusal with
  | some e => exact .pure hlogs
  | none =>
    obtain ⟨qualities, hlength, hadds⟩ := hlogs
    exact .pure ⟨qualities, hlength, hadds.finish⟩

theorem chronicle {opening : α → Event α} (hc₀ : c₀.Sound) (htold : c₀.progress.Told opening)
    (calls : List Call) (k : Nat) : Yields (after calls k c₀) (Chronicled opening) := by
  have hafter : Yields (after calls k c₀) fun c => c.Sound ∧ c.progress.Told opening := by
    apply after_keeps _ _ calls k ⟨hc₀, htold⟩
    · rintro c ⟨hc, htold⟩
      exact (step_logs hc).mono fun r ⟨hr, hlogs⟩ => ⟨hr, htold.logs hlogs nofun⟩
    · rintro c ⟨hc, htold⟩
      exact ⟨{ hc with }, htold.finish⟩
  refine hafter.mono fun c ⟨hc, htold⟩ => ⟨htold, ?_, ?_⟩
  · exact .of_yields ((step_logs hc).mono fun r hr => hr.2)
  · exact .of_yields (run_logs hc)

end AntSystem

namespace GeneticSearch

variable {γ : Type} [Scalar α] [Source γ α] {s₀ : GeneticSearch γ α}

def Chronicled (opening : α → Event α) : GeneticSearch γ α → Prop :=
  Chronicle opening (fun _ => False) progress (fun s => s.config.maxGenerations)
    (fun s => (s, none)) step run

theorem start_tells (d : Distances α) (config : Genetic.Config α) (g : γ) :
    Meets (start d config g) (fun s => s.progress.Told (.populated config.greedyCount))
      fun r => r.log = [] := by
  refine (Meets.unlogged _).bind fun _ _ => (Meets.unlogged _).bind fun _ _ => ?_
  refine (Meets.unlogged_fault _).bind fun _ _ => ?_
  refine (Meets.mapM _ fun _ _ => Meets.unlogged_fault _).bind fun _ _ => ?_
  refine (Meets.unlogged_fault _).bind fun c _ => .pure ?_
  exact Progress.told_start (.populated config.greedyCount) ⟨_, c.tourLength⟩ rfl

theorem chronicle [BoundedIndex γ] {opening : α → Event α} (hs₀ : s₀.Sound)
    (htold : s₀.progress.Told opening) (calls : List Call) (k : Nat) :
    Yields (after calls k s₀) (Chronicled opening) := by
  have hstep : ∀ s : GeneticSearch γ α, s.Sound → Meets (step s) (fun s' => s'.Sound ∧
      ∃ quality, s.progress.Adds [quality] [] s'.progress) fun _ => False := by
    intro s hs
    obtain ⟨s', hstep, hcontinues⟩ := step_yields hs
    obtain ⟨c, -, hprogress⟩ := step_eq_ok hstep
    exact .of_yields ⟨s', hstep, hcontinues.sound, Progress.exists_adds hprogress⟩
  have hfinish : ∀ s : GeneticSearch γ α, s.Sound → (finished s).Sound :=
    fun s hs => { hs with recorded := { hs.recorded with } }
  exact (chronicle_of_steps (fun _ => rfl) hstep hfinish (fun _ => rfl) hs₀ htold calls k).yields
    fun _ => id

end GeneticSearch

namespace DifferentialSearch

variable {γ : Type} [Scalar α] [Source γ α] {o : Objective α} {s₀ : DifferentialSearch γ α}

def Chronicled (o : Objective α) (opening : α → Event α) : DifferentialSearch γ α → Prop :=
  Chronicle opening o.FailsInside progress (fun s => s.config.maxGenerations)
    (fun s => (s, none)) step run

theorem start_tells (o : Objective α) (config : Differential.Config α) (g : γ) :
    Meets (start o config g) (fun s => s.progress.Told .scattered) fun r => r.log = [] := by
  refine (Meets.unlogged _).bind fun _ _ => (Meets.unlogged _).bind fun _ _ => ?_
  refine (Meets.unlogged_fault _).bind fun _ _ => ?_
  refine (Meets.mapM _ fun _ _ => Meets.unlogged_fault _).bind fun _ _ => ?_
  refine (Meets.unlogged_fault _).bind fun leader _ => ?_
  refine (Meets.unlogged_fault _).bind fun position _ => .pure ?_
  exact Progress.told_start .scattered ⟨position, leader.2⟩ rfl

variable [FiniteArithmetic α] [UniformDraws γ] [BoundedIndex γ] [DistinctSamples γ]

theorem chronicle {opening : α → Event α} {size : Nat} (hb : o.bounds.Sound) (hfour : 4 ≤ size)
    (hs₀ : Inside o size s₀) (hkept₀ : s₀.Kept) (htold : s₀.progress.Told opening)
    (calls : List Call) (k : Nat) :
    Meets (after calls k s₀) (Chronicled o opening) o.FailsInside := by
  have hstep : ∀ s : DifferentialSearch γ α, Inside o size s ∧ s.Kept → Meets (step s) (fun s' =>
      (Inside o size s' ∧ s'.Kept) ∧ ∃ quality, s.progress.Adds [quality] [] s'.progress)
      o.FailsInside := by
    rintro s ⟨hs, hkept⟩
    have hvisits := (hs.visits hb hfour hs.length_population.le).and_ensures
      (visits_ensures hkept _)
    refine hvisits.bind fun s' ⟨hs', hunder⟩ => .pure ⟨⟨{ hs' with }, { hunder.kept with }⟩, ?_⟩
    exact Progress.exists_adds (congrArg Progress.advance hunder.progress)
  have hfinish : ∀ s : DifferentialSearch γ α, Inside o size s ∧ s.Kept →
      Inside o size (finished s) ∧ (finished s).Kept :=
    fun s ⟨hs, hkept⟩ => ⟨{ hs with }, { hkept with }⟩
  exact chronicle_of_steps (fun _ => rfl) hstep hfinish (fun _ => rfl) ⟨hs₀, hkept₀⟩ htold calls k

end DifferentialSearch

namespace SwarmSearch

variable {γ : Type} [Scalar α] [Source γ α] {o : Objective α} {s₀ : SwarmSearch γ α}

def Chronicled (o : Objective α) (opening : α → Event α) : SwarmSearch γ α → Prop :=
  Chronicle opening o.FailsInside progress (fun s => s.config.maxGenerations)
    (fun s => (s, none)) step run

theorem start_tells (o : Objective α) (config : Swarm.Config α) (g : γ) :
    Meets (start o config g) (fun s => s.progress.Told .scattered) fun r => r.log = [] := by
  refine (Meets.unlogged _).bind fun _ _ => (Meets.unlogged _).bind fun _ _ => ?_
  refine (Meets.unlogged_fault _).bind fun _ _ => ?_
  refine (Meets.unlogged_fault _).bind fun leader _ => .pure ?_
  exact Progress.told_start .scattered ⟨_, leader.2.bestValue⟩ rfl

variable [FiniteArithmetic α]

theorem chronicle {opening : α → Event α} {config : Swarm.Config α} (hb : o.bounds.Sound)
    (hfit : Fit config) (hs₀ : Inside o config s₀) (hkept₀ : s₀.Kept)
    (htold : s₀.progress.Told opening) (calls : List Call) (k : Nat) :
    Meets (after calls k s₀) (Chronicled o opening) o.FailsInside := by
  have hstep : ∀ s : SwarmSearch γ α, Inside o config s ∧ s.Kept → Meets (step s) (fun s' =>
      (Inside o config s' ∧ s'.Kept) ∧ ∃ quality, s.progress.Adds [quality] [] s'.progress)
      o.FailsInside := by
    rintro s ⟨hs, hkept⟩
    have hvisits := (hs.visits hb hfit hs.length_particles.le).and_ensures
      (visits_ensures hkept _)
    refine hvisits.bind fun s' ⟨hs', hunder⟩ => .pure ⟨⟨{ hs' with }, { hunder.kept with }⟩, ?_⟩
    exact Progress.exists_adds (congrArg Progress.advance hunder.progress)
  have hfinish : ∀ s : SwarmSearch γ α, Inside o config s ∧ s.Kept →
      Inside o config (finished s) ∧ (finished s).Kept :=
    fun s ⟨hs, hkept⟩ => ⟨{ hs with }, { hkept with }⟩
  exact chronicle_of_steps (fun _ => rfl) hstep hfinish (fun _ => rfl) ⟨hs₀, hkept₀⟩ htold calls k

end SwarmSearch

variable {γ : Type} [Scalar α] [Source γ α]

/-- After any calls the log of a search tells the history; a search that does not start has logged
its first tour or nothing. -/
theorem told_throughout [BoundedIndex γ] [FaithfulShuffle γ] [UniformDraws γ] [DistinctSamples γ]
    [FiniteArithmetic α] [Power α] (g : γ) (calls : List Call) (k : Nat) :
    (∀ (d : Distances α) (config : ColonySystem.Config α),
      let trailOf length := 1 / (Scalar.count d.cities * length)
      Meets (ColonySystem.start d config g)
        (fun c₀ => Yields (ColonySystem.after calls k c₀)
          (ColonySystem.Chronicled fun length => .trailSeeded length (trailOf length)))
        (Colony.Rejected trailOf d g)) ∧
    (∀ (d : Distances α) (config : AntSystem.Config α),
      let trailOf length := Scalar.count config.numAnts / length
      Meets (AntSystem.start d config g)
        (fun c₀ => Yields (AntSystem.after calls k c₀)
          (AntSystem.Chronicled fun length => .trailSeeded length (trailOf length)))
        (Colony.Rejected trailOf d g)) ∧
    (∀ (d : Distances α) (config : Genetic.Config α),
      Meets (GeneticSearch.start d config g)
        (fun s₀ => Yields (GeneticSearch.after calls k s₀)
          (GeneticSearch.Chronicled (.populated config.greedyCount)))
        fun r => r.log = []) ∧
    (∀ (o : Objective α) (config : Differential.Config α),
      Meets (DifferentialSearch.start o config g)
        (fun s₀ => Meets (DifferentialSearch.after calls k s₀)
          (DifferentialSearch.Chronicled o .scattered) o.FailsInside)
        fun r => r.log = []) ∧
    ∀ (o : Objective α) (config : Swarm.Config α),
      Meets (SwarmSearch.start o config g)
        (fun s₀ => Meets (SwarmSearch.after calls k s₀)
          (SwarmSearch.Chronicled o .scattered) o.FailsInside)
        fun r => r.log = [] := by
  refine ⟨fun d config => ?_, fun d config => ?_, fun d config => ?_, fun o config => ?_,
    fun o config => ?_⟩
  · refine ((ColonySystem.start_meets d config g).and (ColonySystem.start_tells d config g)).mono
      ?_ fun r hr => hr.2
    rintro c₀ ⟨⟨-, ⟨hc₀, -⟩, -⟩, htold⟩
    exact ColonySystem.chronicle hc₀ htold calls k
  · refine ((AntSystem.start_meets d config g).and (AntSystem.start_tells d config g)).mono
      ?_ fun r hr => hr.2
    rintro c₀ ⟨⟨⟨hc₀, -⟩, -⟩, htold⟩
    exact AntSystem.chronicle hc₀ htold calls k
  · refine ((GeneticSearch.start_meets d config g).and (GeneticSearch.start_tells d config g)).mono
      ?_ fun r hr => hr.2
    rintro s₀ ⟨⟨hs₀, -⟩, htold⟩
    exact GeneticSearch.chronicle hs₀ htold calls k
  · have hstart := (DifferentialSearch.start_meets o config g).and_ensures
      (DifferentialSearch.start_ensures g)
    refine (hstart.and (DifferentialSearch.start_tells o config g)).mono ?_ fun r hr => hr.2
    rintro s₀ ⟨⟨⟨hb, hfour, hs₀⟩, hsettled⟩, htold⟩
    exact DifferentialSearch.chronicle hb hfour hs₀ hsettled.kept htold calls k
  · have hstart := (SwarmSearch.start_meets o config g).and_ensures (SwarmSearch.start_ensures g)
    refine (hstart.and (SwarmSearch.start_tells o config g)).mono ?_ fun r hr => hr.2
    rintro s₀ ⟨⟨⟨hb, hfit, hs₀⟩, hsettled⟩, htold⟩
    exact SwarmSearch.chronicle hb hfit hs₀ hsettled.kept htold calls k

theorem told_throughout_farCities :
    letI := unitPower
    (∃ c₀ c c' : AntSystem Generator Float, ∃ e,
      AntSystem.start farCities ⟨2, 3, 1, 1, 0.5, 7⟩ (Generator.ofSeed 7) = .ok c₀ ∧
      AntSystem.after [.step, .run] 0 c₀ = .ok c ∧ AntSystem.step c = .ok (c', some e) ∧
      c'.progress.log = c.progress.log ++ [.aborted e c.progress.generation]) ∧
    (∃ r, (ColonySystem.start closeCities ⟨2, 3, 1, 0.5, 0.1, 0.1, 7⟩ (Generator.ofSeed 7) :
        Except (Rejection Float) (ColonySystem Generator Float)) = .error r ∧
      ∃ length trail, r.log = [.trailSeeded length trail]) ∧
    ∃ s₀ : SwarmSearch Generator Float,
      SwarmSearch.start (Landscape.sphere ⟨[-3], [4]⟩) ⟨3, 1, 2, 2, 0.9, 0.2, 7⟩
        (Generator.ofSeed 7) = .ok s₀ ∧
      ∃ s, SwarmSearch.after [.run, .step] 1 s₀ = .ok s ∧ s.progress.Told .scattered := by
  let := unitPower
  obtain ⟨hcolony, -⟩ := told_throughout (α := Float) (Generator.ofSeed 7) [] 0
  obtain ⟨-, hants, -⟩ := told_throughout (α := Float) (Generator.ofSeed 7) [.step, .run] 0
  obtain ⟨-, -, -, -, hswarm⟩ := told_throughout (α := Float) (Generator.ofSeed 7) [.run, .step] 1
  refine ⟨?_, ?_, ?_⟩
  · have hfails : (AntSystem.start farCities ⟨2, 3, 1, 1, 0.5, 7⟩ (Generator.ofSeed 7) :
        Except (Rejection Float) (AntSystem Generator Float)).toOption.any (fun c₀ =>
          (AntSystem.after [.step, .run] 0 c₀).toOption.any fun c =>
            (AntSystem.step c).toOption.any fun r => r.2.isSome) = true := by decide +kernel
    obtain ⟨c₀, hstart⟩ : ∃ c₀ : AntSystem Generator Float,
        AntSystem.start farCities ⟨2, 3, 1, 1, 0.5, 7⟩ (Generator.ofSeed 7) = .ok c₀ :=
      exists_eq_ok (by decide +kernel)
    obtain ⟨c, hafter, hc⟩ := (hants farCities _).of_eq hstart
    obtain ⟨r, hstep, hlogs⟩ := hc.step.yields fun _ => id
    simp only [hstart, hafter, hstep, Except.toOption, Option.any_some] at hfails
    obtain ⟨e, he⟩ := Option.isSome_iff_exists.mp hfails
    rw [id, he] at hlogs
    obtain ⟨_ | ⟨quality, later⟩, hlength, hadds⟩ := hlogs
    · refine ⟨c₀, c, r.1, e, hstart, hafter, ?_, ?_⟩
      · rw [hstep, ← he]
      · rw [hadds.log, hadds.generation]
        simp [Event.generations]
    · simp at hlength
  · have hlogged : (((ColonySystem.start closeCities ⟨2, 3, 1, 0.5, 0.1, 0.1, 7⟩
        (Generator.ofSeed 7) : Except (Rejection Float) (ColonySystem Generator Float)).map
          fun _ => 0).tryCatch fun r => .ok r.log.length).toOption = some 1 := by decide +kernel
    have hrejected := hcolony closeCities ⟨2, 3, 1, 0.5, 0.1, 0.1, 7⟩
    cases hstart : (ColonySystem.start closeCities ⟨2, 3, 1, 0.5, 0.1, 0.1, 7⟩
        (Generator.ofSeed 7) : Except (Rejection Float) (ColonySystem Generator Float)) with
    | ok c =>
      rw [hstart] at hlogged
      cases hlogged
    | error r =>
      rw [hstart] at hlogged hrejected
      have hlength : r.log.length = 1 := Option.some.inj hlogged
      obtain ⟨i, j, hweight⟩ : ∃ i j, r.failure = .invalid (.nonFiniteWeight i j) := by
        by_contra hnone
        push Not at hnone
        simp [hrejected.unweighed hnone] at hlength
      obtain ⟨walk, -, -, hlog⟩ := hrejected.weighed i j hweight
      exact ⟨r, rfl, _, _, hlog⟩
  · obtain ⟨s₀, hstart, s, hafter⟩ : ∃ s₀ : SwarmSearch Generator Float,
        SwarmSearch.start (Landscape.sphere ⟨[-3], [4]⟩) ⟨3, 1, 2, 2, 0.9, 0.2, 7⟩
          (Generator.ofSeed 7) = .ok s₀ ∧
        ∃ s, SwarmSearch.after [.run, .step] 1 s₀ = .ok s :=
      exists_eq_ok_and_eq_ok (by decide +kernel)
    exact ⟨s₀, hstart, s, hafter, (((hswarm _ _).of_eq hstart).of_eq hafter).told⟩

end PopulationSearch
