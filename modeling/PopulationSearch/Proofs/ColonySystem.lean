import PopulationSearch.Proofs.Calls
import PopulationSearch.Proofs.Colony
import PopulationSearch.Proofs.Pheromone
import PopulationSearch.Proofs.Rejections
import PopulationSearch.Proofs.Timetable

/-! Generations of the Ant Colony System. Every beginning of the schedule can be performed. -/

namespace PopulationSearch.ColonySystem

variable {γ α : Type} [Scalar α] [Source γ α] [BoundedIndex γ] {c c' : ColonySystem γ α}

theorem start_meets [Power α] (d : Distances α) (config : Config α) (g : γ) :
    Meets (start d config g)
      (fun c => config.validate = .ok () ∧
        (c.Sound ∧ c.distances = d ∧ c.config = config ∧ c.ants.length = config.numAnts) ∧
        ∃ walk g', (Walk.nearest d).run g = .ok (walk, g') ∧
          c.Seeded d (fun length => 1 / (Scalar.count d.cities * length)) walk)
      (Rejection.Blames d.Fails) := by
  refine (Requirement.configured_meets config.validate).of_failure.bind fun _ hconfig => ?_
  obtain ⟨_, hants, -⟩ := bind_eq_ok.mp hconfig
  exact (Colony.start_meets (Requirement.atLeast_eq_ok.mp hants)).imp fun c h => ⟨hconfig, h⟩

theorem start_sound [Power α] {d : Distances α} {config : Config α} {g : γ}
    (h : start d config g = .ok c) :
    c.Sound ∧ c.distances = d ∧ c.config = config ∧ c.ants.length = config.numAnts :=
  ((start_meets d config g).of_eq h).2.1

theorem start_seed [Power α] {d : Distances α} {config : Config α} {g : γ}
    (h : start d config g = .ok c) :
    ∃ walk g', (Walk.nearest d).run g = .ok (walk, g') ∧
      c.Seeded d (fun length => 1 / (Scalar.count d.cities * length)) walk :=
  ((start_meets d config g).of_eq h).2.2

/-- How many of the first acts of an ant have moved it: all but the marks. -/
def errands (turn : Nat) : Nat := if turn = 0 then 0 else turn / 2 + 1

theorem errands_of_pos {turn : Nat} (h : 0 < turn) : errands turn = turn / 2 + 1 :=
  if_neg (Nat.ne_of_gt h)

theorem errands_succ_of_even {turn : Nat} (hpos : 0 < turn) (heven : turn % 2 = 0) :
    errands (turn + 1) = errands turn := by
  rw [errands_of_pos hpos, errands_of_pos (Nat.succ_pos turn)]
  omega

theorem errands_succ_of_odd {turn : Nat} (hodd : turn % 2 = 1) :
    errands (turn + 1) = errands turn + 1 := by
  have hpos : 0 < turn := by omega
  rw [errands_of_pos hpos, errands_of_pos (Nat.succ_pos turn)]
  omega

theorem errands_pos {turn : Nat} (h : 0 < turn) : 0 < errands turn := by
  rw [errands_of_pos h]
  exact Nat.succ_pos _

theorem errands_update (turn : Nat → Nat) (k next : Nat) :
    (fun i => errands (Function.update turn k next i)) =
      Function.update (fun i => errands (turn i)) k (errands next) :=
  funext fun i => Function.apply_update (fun _ => errands) turn k next i

def Changes (c c' : ColonySystem γ α) : Act → Prop
  | .place k => c'.pheromone = c.pheromone ∧
      ∃ start, c'.ants = c.ants.set k (Walk.placed c.distances.cities start)
  | .move k | .close k => Colony.Extends k c c'
  | .mark k => c'.ants = c.ants ∧ ∃ w i j, c.ants[k]? = some w ∧ w.lastLeg? = some (i, j) ∧
      c.pheromone.localUpdate c.config.rho c.initialTrail i j = .ok c'.pheromone

theorem place_yields (hc : c.Sound) {turn : Nat → Nat}
    (h : c.Underway (fun i => errands (turn i)) c') {k : Nat} (hturn : turn k = 0) :
    Yields (perform c' (.place k)) fun c'' =>
      c.Underway (fun i => errands (Function.update turn k (turn k + 1) i)) c'' ∧
        Changes c' c'' (.place k) := by
  have herrands : errands (turn k + 1) = 1 := by rw [hturn]; rfl
  rw [errands_update, herrands]
  refine (h.place_yields hc k).mono ?_
  rintro c'' ⟨hunder, hp, start, hants⟩
  refine ⟨hunder, hp, start, ?_⟩
  rw [h.task.distances]
  exact hants

omit [BoundedIndex γ] in
theorem move_yields (hc : c.Sound) {turn : Nat → Nat}
    (h : c.Underway (fun i => errands (turn i)) c') {k : Nat} (hk : k < c.ants.length)
    (hodd : turn k % 2 = 1) (hlt : turn k + 1 < 2 * c.distances.cities) :
    Yields (perform c' (.move k)) fun c'' =>
      c.Underway (fun i => errands (Function.update turn k (turn k + 1) i)) c'' ∧
        Changes c' c'' (.move k) := by
  have hdone : errands (turn k) = turn k / 2 + 1 := errands_of_pos (by omega)
  have hmore : errands (turn k) < c.distances.cities := by omega
  rw [errands_update, errands_succ_of_odd hodd]
  obtain ⟨w, hw⟩ := h.exists_ant hk
  obtain ⟨hopen, hlen⟩ := (Walk.stage_of_le hmore.le).mp (h.stage k w (by omega) hw)
  have hahead := hopen.unvisited_pos (hlen ▸ hmore)
  have hv : c'.visibility.Square c.distances.cities := h.task.visibility ▸ hc.visibility
  apply Yields.demand_bind hw
  obtain ⟨⟨position, g⟩, hchoice, hposition⟩ :=
    Colony.chooseOrExploit_yields h.pheromone hv hopen hahead c'.config.q0 c'.source
  apply Yields.eq_bind hchoice
  exact h.advance_yields hc hw (by omega) hmore hposition g

omit [BoundedIndex γ] in
theorem close_yields (hc : c.Sound) {turn : Nat → Nat}
    (h : c.Underway (fun i => errands (turn i)) c') {k : Nat} (hk : k < c.ants.length)
    (hturn : turn k = 2 * c.distances.cities - 1) :
    Yields (perform c' (.close k)) fun c'' =>
      c.Underway (fun i => errands (Function.update turn k (turn k + 1) i)) c'' ∧
        Changes c' c'' (.close k) := by
  have htwo := hc.distances.two_le
  have hall : errands (turn k) = c.distances.cities := by
    rw [errands_of_pos (by omega)]
    omega
  rw [errands_update, errands_succ_of_odd (by omega)]
  exact h.close_yields hc hk hall

omit [Scalar α] in
theorem lastLeg?_of_two_le {w : Walk α} (h : 2 ≤ w.tour.length) :
    ∃ i j, w.lastLeg? = some (i, j) ∧ (i, j) ∈ Tour.legs w.tour := by
  have hne : Tour.legs w.tour ≠ [] := by
    refine List.ne_nil_of_length_pos ?_
    rw [Tour.length_legs]
    omega
  exact ⟨_, _, List.getLast?_eq_some_getLast hne, List.getLast_mem hne⟩

omit [BoundedIndex γ] in
theorem mark_yields (hc : c.Sound) {turn : Nat → Nat}
    (h : c.Underway (fun i => errands (turn i)) c') {k : Nat} (hk : k < c.ants.length)
    (hpos : 0 < turn k) (heven : turn k % 2 = 0) (hle : turn k ≤ 2 * c.distances.cities) :
    Yields (perform c' (.mark k)) fun c'' =>
      c.Underway (fun i => errands (Function.update turn k (turn k + 1) i)) c'' ∧
        Changes c' c'' (.mark k) := by
  have hdone : errands (turn k) = turn k / 2 + 1 := errands_of_pos hpos
  rw [errands_update, errands_succ_of_even hpos heven, Function.update_eq_self]
  obtain ⟨w, hw⟩ := h.exists_ant hk
  have hstage := h.stage k w (by omega) hw
  have hlen : w.tour.length = errands (turn k) := hstage.length_tour (by omega)
  obtain ⟨i, j, hlast, hmem⟩ := lastLeg?_of_two_le (w := w) (by omega)
  obtain ⟨hi, hj⟩ := Tour.mem_of_mem_legs hmem
  have hmodify := h.pheromone.modify_yields (hstage.lt_of_mem_tour hc.distances hi)
    (hstage.lt_of_mem_tour hc.distances hj) (Pheromone.blend c'.config.rho c'.initialTrail)
  apply Yields.demand_bind hw
  simp only [hlast]
  obtain ⟨p, hp, hsquare, -⟩ := hmodify
  apply Yields.eq_bind hp
  exact .pure ⟨⟨{ h.task with }, h.progress, hsquare, h.waiting, h.stage⟩, rfl, w, i, j, hw, hlast,
    hp⟩

theorem perform_yields (hc : c.Sound) {acts : List Act} {a : Act}
    (hacts : acts ++ [a] <+: schedule c.distances.cities c.ants.length)
    (h : c.Underway (fun i => errands (turns Act.ant acts i)) c') :
    Yields (perform c' a) fun c'' =>
      c.Underway (fun i => errands (turns Act.ant (acts ++ [a]) i)) c'' ∧ Changes c' c'' a := by
  have hn : 0 < c.distances.cities := hc.distances.cities_pos
  obtain ⟨hk, hlt, ha⟩ := (timetable hn c.ants.length).next hacts
  rw [turns_append]
  cases a with
  | place k => exact place_yields hc h (eq_place_iff.mp ha.symm)
  | move k =>
    obtain ⟨hodd, hne⟩ := eq_move_iff.mp ha.symm
    simp only [Act.ant] at hlt hodd hne
    exact move_yields hc h hk hodd (by omega)
  | mark k =>
    obtain ⟨hpos, heven⟩ := eq_mark_iff.mp ha.symm
    exact mark_yields hc h hk hpos heven (Nat.le_of_lt_succ hlt)
  | close k => exact close_yields hc h hk ((eq_close_iff hn).mp ha.symm)

theorem underway_of_beginning (hc : c.Sound) {acts : List Act}
    (hacts : acts <+: schedule c.distances.cities c.ants.length) :
    Yields (acts.foldlM perform c) (c.Underway fun i => errands (turns Act.ant acts i)) := by
  refine Yields.foldlM (fun acts c' => c.Underway (fun i => errands (turns Act.ant acts i)) c')
    acts hc.underway fun done a hdone c' h => ?_
  exact (perform_yields hc (hdone.trans hacts) h).mono fun c'' h' => h'.1

theorem errands_last (n : Nat) : errands (2 * n + 1) = n + 1 := by
  rw [errands, if_neg (by omega)]
  omega

omit [Source γ α] [BoundedIndex γ] in
theorem reinforceBest_yields (hc : c.Sound) :
    Yields (reinforceBest c) fun c' => ∃ p : Pheromone α, c' = { c with pheromone := p } ∧
      p.Square c.distances.cities ∧ ∀ i < c.distances.cities, ∀ j < c.distances.cities,
        p.get i j = if (i, j) ∈ Tour.legs c.progress.best.solution
          then Pheromone.blend c.config.alpha (1 / c.progress.best.quality) <$> c.pheromone.get i j
          else c.pheromone.get i j := by
  have hn : 0 < c.distances.cities := hc.distances.cities_pos
  obtain ⟨p, halong, hp, hget⟩ := Pheromone.along_closed_yields hc.pheromone
    (Pheromone.blend c.config.alpha (1 / c.progress.best.quality)) hn hc.best.closed
  apply Yields.eq_bind halong
  refine .pure ⟨p, rfl, hp, fun i hi j hj => ?_⟩
  rw [hget i hi j hj, Pheromone.onLegs_eq]
  split
  · rfl
  · exact id_map _

structure Generation (c c₁ c' : ColonySystem γ α) : Prop where
  performed : (schedule c.distances.cities c.ants.length).foldlM perform c = .ok c₁
  ants : c'.ants = c₁.ants
  progress : ∃ ant ∈ c₁.ants,
    c'.progress = (c.progress.offer (fun a b => a < b) ant.tour ant.length).advance
  pheromone : ∀ i < c.distances.cities, ∀ j < c.distances.cities, c'.pheromone.get i j =
    if (i, j) ∈ Tour.legs c'.progress.best.solution
      then Pheromone.blend c.config.alpha (1 / c'.progress.best.quality) <$> c₁.pheromone.get i j
      else c₁.pheromone.get i j

omit [Source γ α] [BoundedIndex γ] in
theorem closed_of_schedule (hc : c.Sound) (h : c.Underway (fun i => errands (turns Act.ant
    (schedule c.distances.cities c.ants.length) i)) c') :
    ∀ ant ∈ c'.ants, ant.Closed c.distances := by
  have hn : 0 < c.distances.cities := hc.distances.cities_pos
  refine h.all_closed fun k hk => ?_
  rw [(timetable hn c.ants.length).turns_schedule hk, errands_last]
  exact Nat.lt_succ_self _

theorem step_yields (hc : c.Sound) :
    Yields (step c) fun c' => c.Continues c' ∧
      (∀ ant ∈ c'.ants, ant.Closed c.distances) ∧ ∃ c₁, Generation c c₁ c' := by
  obtain ⟨c₁, hperformed, h₁⟩ := underway_of_beginning hc List.prefix_rfl
  apply Yields.eq_bind hperformed
  have hclosed := closed_of_schedule hc h₁
  have hsound := h₁.sound hc
  have hclosed₁ : ∀ ant ∈ c₁.ants, ant.Closed c₁.distances := h₁.task.distances.symm ▸ hclosed
  obtain ⟨_, hoffer, hoffered, ant, hant, rfl⟩ := hsound.offerLeader_yields hclosed₁
  obtain ⟨_, hreinforce, p, rfl, hp, hget⟩ := reinforceBest_yields hoffered
  apply Yields.eq_bind hoffer
  apply Yields.eq_bind hreinforce
  have hcontinues : c.Continues { c₁ with
      pheromone := p
      progress := (c₁.progress.offer (fun a b => a < b) ant.tour ant.length).advance } :=
    ⟨{ hoffered with pheromone := hp }, { h₁.task with }⟩
  refine .pure ⟨hcontinues, hclosed, c₁, hperformed, rfl, ⟨ant, hant, ?_⟩, ?_⟩
  · rw [← h₁.progress]
  · rw [← h₁.task.distances, ← h₁.task.config]
    exact hget

theorem step_eq_ok (hc : c.Sound) (h : step c = .ok c') :
    ∃ i ant, leader? (fun a b => a.length < b.length) c'.ants = some (i, ant) ∧
      c'.progress = (c.progress.offer (fun a b => a < b) ant.tour ant.length).advance := by
  obtain ⟨c₁, hperformed, h⟩ := bind_eq_ok.mp h
  obtain ⟨c₂, hoffer, h⟩ := bind_eq_ok.mp h
  obtain ⟨c₃, hreinforce, h⟩ := bind_eq_ok.mp h
  obtain ⟨p, -, hp⟩ := bind_eq_ok.mp hreinforce
  obtain ⟨i, ant, hleader, rfl⟩ := Colony.offerLeader_eq_ok hoffer
  have hprogress := ((underway_of_beginning hc List.prefix_rfl).of_eq hperformed).progress
  cases hp
  cases h
  exact ⟨i, ant, hleader, by rw [← hprogress]⟩

def finished (c : ColonySystem γ α) : ColonySystem γ α :=
  { c with progress := c.progress.finish }

def after (calls : List Call) (k : Nat) (c : ColonySystem γ α) :
    Except Fault (ColonySystem γ α) := do
  let c ← afterCalls step run calls c
  iterate k step c

omit [BoundedIndex γ] in
theorem after_keeps {I : ColonySystem γ α → Prop} (hstep : ∀ c, I c → Yields (step c) I)
    (hfinish : ∀ c, I c → I (finished c)) (calls : List Call) (k : Nat) (h : I c) :
    Yields (after calls k c) I :=
  afterCalls_keeps (fun _ => rfl) I hstep hfinish calls k h

theorem after_yields (hc : c.Sound) (calls : List Call) (k : Nat) :
    Yields (after calls k c) c.Continues := by
  apply after_keeps _ _ calls k hc.continues
  · exact fun c' h => (step_yields h.sound).mono fun c'' h' => h.trans h'.1
  · exact fun c' h => ⟨{ h.sound with }, { h.task with }⟩

end PopulationSearch.ColonySystem
