import PopulationSearch.Proofs.Calls
import PopulationSearch.Proofs.Colony
import PopulationSearch.Proofs.Pheromone
import PopulationSearch.Proofs.Rejections
import PopulationSearch.Proofs.Timetable

/-! Generations of the Ant System. A refused act has changed nothing, so a generation that is given
up leaves the ants where a beginning of the schedule has taken them. -/

namespace PopulationSearch.AntSystem

variable {γ α : Type} [Scalar α] [Power α] [Source γ α] {c c' : AntSystem γ α}

theorem start_meets [BoundedIndex γ] (d : Distances α) (config : Config α) (g : γ) :
    Meets (start d config g)
      (fun c => (c.Sound ∧ c.distances = d ∧ c.config = config ∧ c.ants.length = config.numAnts) ∧
        ∃ walk g', (Walk.nearest d).run g = .ok (walk, g') ∧
          c.Seeded d (fun length => Scalar.count config.numAnts / length) walk)
      (Rejection.Blames d.Fails) := by
  refine (Requirement.configured_meets config.validate).of_failure.bind fun _ hconfig => ?_
  obtain ⟨_, hants, -⟩ := bind_eq_ok.mp hconfig
  exact Colony.start_meets (Requirement.atLeast_eq_ok.mp hants)

theorem start_sound [BoundedIndex γ] {d : Distances α} {config : Config α} {g : γ}
    (h : start d config g = .ok c) :
    c.Sound ∧ c.distances = d ∧ c.config = config ∧ c.ants.length = config.numAnts :=
  ((start_meets d config g).of_eq h).1

theorem start_seed [BoundedIndex γ] {d : Distances α} {config : Config α} {g : γ}
    (h : start d config g = .ok c) :
    ∃ walk g', (Walk.nearest d).run g = .ok (walk, g') ∧
      c.Seeded d (fun length => Scalar.count config.numAnts / length) walk :=
  ((start_meets d config g).of_eq h).2

theorem move_admits (hc : c.Sound) {turn : Nat → Nat} (h : c.Underway turn c') {k : Nat}
    (hk : k < c.ants.length) (hplaced : 0 < turn k) (hmore : turn k < c.distances.cities) :
    Admits (perform c' (.move k))
      (fun c'' => c.Underway (Function.update turn k (turn k + 1)) c'' ∧ c'.Extends k c'')
      fun _ => True := by
  obtain ⟨w, hw⟩ := h.exists_ant hk
  obtain ⟨hopen, hlen⟩ := (Walk.stage_of_le hmore.le).mp (h.stage k w hplaced hw)
  have hahead := hopen.unvisited_pos (hlen ▸ hmore)
  have hv : c'.visibility.Square c.distances.cities := h.task.visibility ▸ hc.visibility
  apply Admits.demand_bind hw
  refine (Colony.choose_admits h.pheromone hv hopen hahead _ c'.source).bind ?_
  rintro ⟨position, g⟩ hposition
  exact Admits.lift (h.advance_yields hc hw hplaced hmore hposition g)

theorem perform_admits [BoundedIndex γ] (hc : c.Sound) {acts : List Act} {a : Act}
    (hacts : acts ++ [a] <+: schedule c.distances.cities c.ants.length)
    (h : c.Underway (turns Act.ant acts) c') :
    Admits (perform c' a) (c.Underway (turns Act.ant (acts ++ [a]))) fun _ => True := by
  have hn : 0 < c.distances.cities := hc.distances.cities_pos
  obtain ⟨hk, hlt, ha⟩ := (timetable hn c.ants.length).next hacts
  rw [turns_append]
  cases a with
  | place k =>
    have hturn : turns Act.ant acts k = 0 := eq_place_iff.mp ha.symm
    simp only [Act.ant, hturn]
    exact Admits.lift ((h.place_yields hc k).mono fun c'' h' => h'.1)
  | move k =>
    obtain ⟨hplaced, hne⟩ := eq_move_iff.mp ha.symm
    simp only [Act.ant] at hk hlt hplaced hne
    exact (move_admits hc h hk hplaced (by omega)).mono (fun c'' h' => h'.1) fun _ _ => trivial
  | close k =>
    have hturn := (eq_close_iff hn).mp ha.symm
    exact Admits.lift ((h.close_yields hc hk hturn).mono fun c'' h' => h'.1)

structure Halted (acts done : List Act) (r : AntSystem γ α × Option (Error α)) : Prop where
  performed : done <+: acts
  complete : r.2 = none → done = acts
  refused : ∀ e, r.2 = some e → ∃ a, done ++ [a] <+: acts ∧ perform r.1 a = .error (.invalid e)

theorem performAll_yields (I : List Act → AntSystem γ α → Prop) (acts : List Act) (h₀ : I [] c)
    (hstep : ∀ done a, done ++ [a] <+: acts → ∀ c', I done c' →
      Admits (perform c' a) (I (done ++ [a])) fun _ => True) :
    Yields (performAll acts c) fun r => ∃ done, Halted acts done r ∧ I done r.1 := by
  induction acts generalizing c I with
  | nil => exact .ok ⟨[], ⟨List.prefix_rfl, fun _ => rfl, nofun⟩, h₀⟩
  | cons a acts ih =>
    have hfirst := hstep [] a (List.prefix_append [a] acts) c h₀
    rw [performAll]
    rcases hperform : perform c a with (e | f) | c'
    · refine .ok ⟨[], ⟨List.nil_prefix, nofun, fun e' he => ?_⟩, h₀⟩
      cases he
      exact ⟨a, List.prefix_append [a] acts, hperform⟩
    · rw [hperform] at hfirst
      exact hfirst.elim
    · rw [hperform] at hfirst
      refine (ih (fun done => I (a :: done)) hfirst fun done b hdone => ?_).mono ?_
      · exact hstep (a :: done) b ((List.prefix_cons_inj a).mpr hdone)
      · rintro r ⟨done, hhalt, hI⟩
        refine ⟨a :: done, ⟨(List.prefix_cons_inj a).mpr hhalt.performed, ?_, ?_⟩, hI⟩
        · exact fun hr => congrArg (a :: ·) (hhalt.complete hr)
        · intro e he
          obtain ⟨b, hb, hrefused⟩ := hhalt.refused e he
          exact ⟨b, (List.prefix_cons_inj a).mpr hb, hrefused⟩

theorem underway_of_beginning [BoundedIndex γ] (hc : c.Sound) {acts : List Act}
    (hacts : acts <+: schedule c.distances.cities c.ants.length) :
    Yields (performAll acts c) fun r =>
      ∃ done, Halted acts done r ∧ c.Underway (turns Act.ant done) r.1 :=
  performAll_yields (fun done => c.Underway (turns Act.ant done)) acts hc.underway
    fun _ _ hdone _ h => perform_admits hc (hdone.trans hacts) h

theorem Halted.placed {n m : Nat} {done : List Act} {r : AntSystem γ α × Option (Error α)}
    (h : Halted (schedule n m) done r) {k : Nat} (hk : k < m) : .place k ∈ done := by
  have hplace : .place k ∈ (List.range m).map Act.place :=
    List.mem_map_of_mem (List.mem_range.mpr hk)
  have hplaces : (List.range m).map Act.place <+: schedule n m := List.prefix_append _ _
  rcases he : r.2 with _ | e
  · rw [h.complete he]
    exact hplaces.mem hplace
  obtain ⟨a, ha, hrefused⟩ := h.refused e he
  rcases Nat.lt_or_ge done.length ((List.range m).map Act.place).length with hlt | hle
  · -- a refused act so early would be the placing of an ant
    have hlen : (done ++ [a]).length ≤ ((List.range m).map Act.place).length := by
      rwa [List.length_append]
    have hearly := List.prefix_of_prefix_length_le ha hplaces hlen
    obtain ⟨i, -, rfl⟩ := List.mem_map.mp
      (hearly.mem (List.mem_append_right _ (List.mem_singleton_self a)))
    exact absurd hrefused (liftM_ne_invalid _ e)
  · exact (List.prefix_of_prefix_length_le hplaces h.performed hle).mem hplace

def raised (leg : Nat × Nat) (level : α) (ant : Walk α) : α :=
  Pheromone.onLegs (· + 1 / ant.length) ant.tour leg level

/-- The level of an edge decays, and then one ant after another raises it. -/
def renewed (rho trail : α) (ants : List (Walk α)) (leg : Nat × Nat) (level : α) : α :=
  ants.foldl (raised leg) (Scalar.larger ((1 - rho) * level) trail)

omit [Power α] [Source γ α] in
theorem deposits_yields {n : Nat} (hn : 0 < n) {p : Pheromone α} (hp : p.Square n)
    {ants : List (Walk α)} (hants : ∀ ant ∈ ants, Tour.IsClosed n ant.tour) :
    Yields (ants.foldlM
      (fun p ant => Pheromone.along (Pheromone.deposit (1 / ant.length)) ant.tour p) p) fun p' =>
        p'.Square n ∧ ∀ i < n, ∀ j < n,
          p'.get i j = (fun level => ants.foldl (raised (i, j)) level) <$> p.get i j := by
  refine Yields.foldlM (fun done (p' : Pheromone α) => p'.Square n ∧ ∀ i < n, ∀ j < n,
    p'.get i j = (fun level => done.foldl (raised (i, j)) level) <$> p.get i j) ants
    ⟨hp, fun i _ j _ => (id_map _).symm⟩ ?_
  rintro done ant hdone p' ⟨hp', hget⟩
  have hant := hants ant (hdone.mem (List.mem_append_right _ (List.mem_singleton_self _)))
  refine (Pheromone.along_closed_yields hp' (· + 1 / ant.length) hn hant).mono ?_
  rintro p'' ⟨hp'', hnext⟩
  refine ⟨hp'', fun i hi j hj => ?_⟩
  rw [hnext i hi j hj, hget i hi j hj, ← comp_map]
  congr 1
  funext level
  rw [List.foldl_append]
  rfl

omit [Power α] [Source γ α] in
theorem renewTrail_yields (hc : c.Sound) (hclosed : ∀ ant ∈ c.ants, ant.Closed c.distances) :
    Yields (renewTrail c) fun c' => ∃ p : Pheromone α, c' = { c with pheromone := p } ∧
      p.Square c.distances.cities := by
  refine (deposits_yields hc.distances.cities_pos (hc.pheromone.map _) fun ant hant =>
    (hclosed ant hant).tour).bind ?_
  exact fun p hp => .pure ⟨p, rfl, hp.1⟩

theorem step_yields [BoundedIndex γ] (hc : c.Sound) :
    Yields (step c) fun r => c.Continues r.1 ∧
      (∀ ant ∈ r.1.ants, ant.Open c.distances ∨ ant.Closed c.distances) ∧
      (r.2 = none → ∀ ant ∈ r.1.ants, ant.Closed c.distances) := by
  have hn : 0 < c.distances.cities := hc.distances.cities_pos
  obtain ⟨⟨c₁, e⟩, hperformed, done, hhalt, h₁⟩ := underway_of_beginning hc List.prefix_rfl
  apply Yields.eq_bind hperformed
  have hsound := h₁.sound hc
  have hplaced : ∀ ant ∈ c₁.ants, ant.Open c.distances ∨ ant.Closed c.distances := by
    refine h₁.all_placed fun k hk => ?_
    have htable := timetable hn c.ants.length
    obtain ⟨q, hq, -⟩ := (htable.mem_iff hhalt.performed (a := .place k) hk).mp (hhalt.placed hk)
    exact Nat.zero_lt_of_lt hq
  cases e with
  | some e =>
    exact .pure ⟨⟨{ hsound with }, { h₁.task with }⟩, hplaced, nofun⟩
  | none =>
    have hclosed : ∀ ant ∈ c₁.ants, ant.Closed c.distances := by
      refine h₁.all_closed fun k hk => ?_
      rw [hhalt.complete rfl, (timetable hn c.ants.length).turns_schedule hk]
      exact Nat.lt_succ_self _
    rw [← h₁.task.distances] at hclosed
    obtain ⟨_, hoffer, hoffered, ant, -, rfl⟩ := hsound.offerLeader_yields hclosed
    obtain ⟨_, hrenew, p, rfl, hp⟩ := renewTrail_yields hoffered hclosed
    rw [h₁.task.distances] at hclosed
    apply Yields.eq_bind hoffer
    apply Yields.eq_bind hrenew
    exact .pure ⟨⟨{ hoffered with pheromone := hp }, { h₁.task with }⟩, hplaced, fun _ => hclosed⟩

theorem step_eq_ok [BoundedIndex γ] (hc : c.Sound) (h : step c = .ok (c', none)) :
    ∃ i ant, leader? (fun a b => a.length < b.length) c'.ants = some (i, ant) ∧
      c'.progress = (c.progress.offer (fun a b => a < b) ant.tour ant.length).advance := by
  obtain ⟨⟨c₁, _ | e⟩, hperformed, h⟩ := bind_eq_ok.mp h
  case some => cases h
  obtain ⟨c₂, hoffer, h⟩ := bind_eq_ok.mp h
  obtain ⟨c₃, hrenew, h⟩ := bind_eq_ok.mp h
  obtain ⟨p, -, hp⟩ := bind_eq_ok.mp hrenew
  obtain ⟨i, ant, hleader, rfl⟩ := Colony.offerLeader_eq_ok hoffer
  obtain ⟨_, -, hunder⟩ := (underway_of_beginning hc List.prefix_rfl).of_eq hperformed
  cases hp
  cases h
  exact ⟨i, ant, hleader, by rw [← hunder.progress]⟩

def finished (c : AntSystem γ α) : AntSystem γ α :=
  { c with progress := c.progress.finish }

def after (calls : List Call) (k : Nat) (c : AntSystem γ α) : Except Fault (AntSystem γ α) := do
  let c ← afterCalls (fun c => Prod.fst <$> step c) (fun c => Prod.fst <$> run c) calls c
  Prod.fst <$> steps k c

section Invariants

variable {I : AntSystem γ α → Prop} (hstep : ∀ c, I c → Yields (step c) fun r => I r.1)
  (hfinish : ∀ c, I c → I (finished c))

include hstep in
theorem steps_keep (k : Nat) (h : I c) : Yields (steps k c) fun r => I r.1 := by
  induction k generalizing c with
  | zero => exact .ok h
  | succ k ih =>
    obtain ⟨⟨c', e⟩, hfirst, h'⟩ := hstep c h
    apply Yields.eq_bind hfirst
    cases e with
    | some e => exact .pure h'
    | none => exact ih h'

include hstep hfinish

theorem run_keeps (h : I c) : Yields (run c) fun r => I r.1 := by
  obtain ⟨⟨c', e⟩, hsteps, h'⟩ := steps_keep hstep c.config.maxGenerations h
  apply Yields.eq_bind hsteps
  cases e with
  | some e => exact .pure h'
  | none => exact .pure (hfinish c' h')

theorem after_keeps (calls : List Call) (k : Nat) (h : I c) : Yields (after calls k c) I := by
  have hcalls : Yields (afterCalls (fun c => Prod.fst <$> step c) (fun c => Prod.fst <$> run c)
      calls c) I := by
    apply afterCalls_yields I _ _ calls h
    · exact fun c' h' => (hstep c' h').map fun r hr => hr
    · exact fun c' h' => (run_keeps hstep hfinish h').map fun r hr => hr
  exact hcalls.bind fun c' h' => (steps_keep hstep k h').map fun r hr => hr

end Invariants

theorem after_yields [BoundedIndex γ] (hc : c.Sound) (calls : List Call) (k : Nat) :
    Yields (after calls k c) c.Continues := by
  apply after_keeps _ _ calls k hc.continues
  · exact fun c' h => (step_yields h.sound).mono fun r h' => h.trans h'.1
  · exact fun c' h => ⟨{ h.sound with }, { h.task with }⟩

/-- What a generation or a run leaves behind if nothing in it was given up. -/
def unrefused (outcome : Except Fault (AntSystem γ α × Option (Error α))) :
    Except (Failure α) (AntSystem γ α) :=
  match outcome with
  | .ok (c, none) => .ok c
  | .ok (_, some e) => .error (.invalid e)
  | .error f => .error (.fault f)

omit [Scalar α] [Power α] [Source γ α] in
theorem unrefused_eq_ok {outcome : Except Fault (AntSystem γ α × Option (Error α))} :
    unrefused outcome = .ok c ↔ outcome = .ok (c, none) := by
  rcases outcome with f | ⟨c', _ | e⟩ <;> simp [unrefused]

theorem unrefused_steps (k : Nat) (c : AntSystem γ α) :
    unrefused (steps k c) = iterate k (fun c => unrefused (step c)) c := by
  induction k generalizing c with
  | zero => rfl
  | succ k ih =>
    rw [steps, iterate_succ]
    rcases step c with f | ⟨c', _ | e⟩
    · rfl
    · exact ih c'
    · rfl

theorem unrefused_run (c : AntSystem γ α) :
    unrefused (run c) = iterate c.config.maxGenerations (fun c => unrefused (step c)) c >>=
      fun c => pure { c with progress := c.progress.finish } := by
  rw [← unrefused_steps, run]
  rcases steps c.config.maxGenerations c with f | ⟨c', _ | e⟩ <;> rfl

def afterUnrefused (calls : List Call) (k : Nat) (c : AntSystem γ α) :
    Except (Failure α) (AntSystem γ α) :=
  afterCalls (fun c => unrefused (step c)) (fun c => unrefused (run c)) calls c >>=
    iterate k fun c => unrefused (step c)

theorem after_of_afterUnrefused {calls : List Call} {k : Nat}
    (h : afterUnrefused calls k c = .ok c') : after calls k c = .ok c' := by
  have hfst {outcome : Except Fault (AntSystem γ α × Option (Error α))} {c : AntSystem γ α}
      (h : unrefused outcome = .ok c) : Prod.fst <$> outcome = .ok c := by
    rw [unrefused_eq_ok] at h
    rw [h]
    rfl
  obtain ⟨c₁, hcalls, hsteps⟩ := bind_eq_ok.mp h
  rw [← unrefused_steps] at hsteps
  refine bind_eq_ok.mpr ⟨c₁, foldlM_eq_ok_of (fun c call c' hcall => ?_) hcalls, hfst hsteps⟩
  cases call with
  | step => exact hfst hcall
  | run => exact hfst hcall

end PopulationSearch.AntSystem
