import PopulationSearch.Proofs.Exact
import PopulationSearch.Proofs.Agreement
import PopulationSearch.Proofs.Corridor

/-! Pure exploitation in exact arithmetic. On even ground the heaviest edge is the shortest one, and
the local rule keeps the ground even: it draws each level towards what it already is. -/

namespace PopulationSearch

theorem Colony.visibility_of_start {κ γ α : Type} [Scalar α] [Power α] [Source γ α] {config : κ}
    {numAnts : Nat} {beta : α} {trailOf : α → α} {d : Distances α} {g : γ} {c : Colony κ γ α}
    (h : start config numAnts beta trailOf d g = .ok c) : d.visibility beta = .ok c.visibility := by
  obtain ⟨_, -, h⟩ := bind_eq_ok.mp h
  obtain ⟨⟨walk, g'⟩, -, h⟩ := bind_eq_ok.mp h
  cases hvisible : d.visibility beta with
  | error failure =>
    rw [hvisible] at h
    cases h
  | ok visible =>
    rw [hvisible] at h
    cases h
    rfl

def Pheromone.Even {α : Type} (n : Nat) (level : α) (p : Pheromone α) : Prop :=
  ∀ i < n, ∀ j < n, p.get i j = .ok level

inductive Walk.Greedy {α : Type} [Scalar α] (d : Distances α) (start : Nat) : Walk α → Prop
  | placed : Greedy d start (placed d.cities start)
  | advance {w w' : Walk α} :
    Greedy d start w → w.advanceNearest d = .ok w' → Greedy d start w'

section

variable {γ α : Type} [Scalar α] {d : Distances α}

namespace Walk

theorem tour_of_advanceNearest {w w' : Walk α} (h : w.advanceNearest d = .ok w') :
    ∃ city, w'.tour = w.tour ++ [city] := by
  obtain ⟨_, -, h⟩ := bind_eq_ok.mp h
  obtain ⟨_, -, h⟩ := bind_eq_ok.mp h
  obtain ⟨_, -, h⟩ := bind_eq_ok.mp h
  obtain ⟨there, -, h⟩ := bind_eq_ok.mp h
  obtain ⟨_, -, h⟩ := bind_eq_ok.mp h
  cases h
  exact ⟨there, rfl⟩

theorem tour_of_close {w w' : Walk α} (h : w.close d = .ok w') :
    ∃ city, w'.tour = w.tour ++ [city] := by
  obtain ⟨_, -, h⟩ := bind_eq_ok.mp h
  obtain ⟨start, -, h⟩ := bind_eq_ok.mp h
  obtain ⟨_, -, h⟩ := bind_eq_ok.mp h
  cases h
  exact ⟨start, rfl⟩

namespace Greedy

variable {start : Nat} {w w' : Walk α}

theorem head?_tour (h : w.Greedy d start) : w.tour.head? = some start := by
  induction h with
  | placed => rfl
  | advance _ hadvance ih =>
    obtain ⟨city, htour⟩ := tour_of_advanceNearest hadvance
    rw [htour, List.head?_append, ih]
    rfl

theorem iterate_eq_ok (h : w.Greedy d start) :
    iterate (w.tour.length - 1) (advanceNearest d) (Walk.placed d.cities start) = .ok w := by
  have hsteps : ∃ k, w.tour.length = k + 1 ∧
      iterate k (advanceNearest d) (Walk.placed d.cities start) = .ok w := by
    induction h with
    | placed => exact ⟨0, rfl, rfl⟩
    | advance _ hadvance ih =>
      obtain ⟨k, hlength, hiterate⟩ := ih
      obtain ⟨city, htour⟩ := tour_of_advanceNearest hadvance
      refine ⟨k + 1, by rw [htour, List.length_append, hlength, List.length_singleton], ?_⟩
      rw [iterate_succ_right, hiterate]
      exact hadvance
  obtain ⟨k, hlength, hiterate⟩ := hsteps
  rwa [hlength, Nat.add_sub_cancel]

theorem nearestFrom_eq (h : w.Greedy d start) (hopen : w.Open d) (hall : w.tour.length = d.cities) :
    nearestFrom d start = w.close d := by
  have hstart : start < d.cities := hopen.lt_of_mem_tour (List.mem_of_head? h.head?_tour)
  have hiterate := h.iterate_eq_ok
  rw [hall] at hiterate
  simp only [nearestFrom, hstart, if_true, hiterate]
  rfl

end Greedy
end Walk

namespace Colony

variable [Power α] {p : Pheromone α} {v : Grid α} {ant : Walk α} {level beta : α}

theorem weights_of_even (hd : d.Sound) (hant : ant.Open d) (hp : p.Even d.cities level)
    (hv : d.visibility beta = .ok v) :
    ∃ here steps, ant.current = .ok here ∧
      ant.unvisited.mapM (fun there => d.distance here there) = .ok steps ∧
      (∀ x ∈ steps, 0 < x) ∧
      weights p v ant = .ok (steps.map fun x => level * Power.power x (-beta)) := by
  obtain ⟨here, hhere⟩ := hant.exists_current
  have hmem : here ∈ ant.tour := List.mem_of_getLast? hhere
  have hi := hant.lt_of_mem_tour hmem
  have hcurrent : ant.current = .ok here := demand_eq_ok.mpr hhere
  obtain ⟨steps, hsteps, hall⟩ := Yields.mapM ant.unvisited
    (f := fun there => d.distance here there) (R := fun there x =>
      (0 < x ∧ (do
        let level ← p.get here there
        let visible ← v.get here there
        return level * visible) = Except.ok (ε := Fault) (level * Power.power x (-beta)))) (by
    intro there hthere
    have hj := hant.lt_of_mem_unvisited hthere
    have hne := hant.ne_of_mem hmem hthere
    obtain ⟨x, hx, hpos, -⟩ := hd.edge here hi there hj hne
    refine ⟨x, hx, hpos, ?_⟩
    rw [hp here hi there hj, ok_bind, Distances.visibility_eq_ok hv hi hj hne hx]
    rfl)
  refine ⟨here, steps, hcurrent, hsteps, forall_mem_of_forall₂ hall fun _ _ h => h.1, ?_⟩
  rw [weights, hcurrent, ok_bind]
  apply mapM_eq_ok_of_forall₂
  rw [List.forall₂_map_right_iff]
  exact hall.imp fun _ _ h => h.2

end Colony
end

theorem Colony.close_eq_ok {κ γ α : Type} [Scalar α] {c c' : Colony κ γ α} {k : Nat}
    (h : c.close k = .ok c') : ∃ w w', c.ants[k]? = some w ∧ w.close c.distances = .ok w' ∧
      c'.ants = c.ants.set k w' := by
  obtain ⟨w, hw, h⟩ := bind_eq_ok.mp h
  obtain ⟨w', hclose, h⟩ := bind_eq_ok.mp h
  cases h
  exact ⟨w, w', demand_eq_ok.mp hw, hclose, rfl⟩

section Exact

variable {K : Type} [Field K] [LinearOrder K] [IsStrictOrderedRing K] [FloorSemiring K]

attribute [local instance] Scalar.exact growingSums_exact nonnegativeSums_exact

omit [IsStrictOrderedRing K] in
theorem Wheel.heaviest_map {f : K → K} {l : List K} (h : StrictAntiOn f {x | x ∈ l}) :
    Wheel.heaviest (l.map f) = leaderIndex (fun a b => a < b) l := by
  rw [Wheel.heaviest, leaderIndex_map]
  exact leaderIndex_congr fun x hx y hy => decide_eq_decide.mpr (h.lt_iff_gt hy hx)

omit [IsStrictOrderedRing K] in
theorem Pheromone.blend_self (rate level : K) : blend rate level level = level := by
  rw [blend, ← add_mul, sub_add_cancel, one_mul]

namespace ColonySystem

variable {γ : Type} {c c' c'' : ColonySystem γ K} [Power K]

structure Exploits (c : ColonySystem γ K) : Prop where
  q0 : c.config.q0 = 1
  beta_pos : 0 < c.config.beta
  visibility : c.distances.visibility c.config.beta = .ok c.visibility
  trail_pos : 0 < c.initialTrail
  even : c.pheromone.Even c.distances.cities c.initialTrail

variable [Source γ K] [BoundedIndex γ]

omit [IsStrictOrderedRing K] in
theorem Exploits.of_beginning (h : Exploits c) (hc : c.Sound) {acts : List Act}
    (hacts : acts <+: schedule c.distances.cities c.ants.length) :
    Yields (acts.foldlM perform c) fun c' =>
      c.Underway (fun i => errands (turns Act.ant acts i)) c' ∧ Exploits c' := by
  refine (levels_of_beginning hc hacts).mono ?_
  rintro c' ⟨hunder, hlevels⟩
  have htask := hunder.task
  refine ⟨hunder, ?_⟩
  constructor
  case q0 => rw [htask.config, h.q0]
  case beta_pos =>
    rw [htask.config]
    exact h.beta_pos
  case visibility => rw [htask.distances, htask.config, htask.visibility, h.visibility]
  case trail_pos =>
    rw [htask.initialTrail]
    exact h.trail_pos
  case even =>
    rw [htask.distances, htask.initialTrail]
    intro i hi j hj
    rw [hlevels i hi j hj, h.even i hi j hj]
    exact congrArg Except.ok (Function.iterate_fixed (Pheromone.blend_self _ _) _)

omit [BoundedIndex γ] in
theorem Exploits.move_eq_ok [DecreasingPowers K] [UniformDraws γ] (h : Exploits c)
    (hd : c.distances.Sound) {k : Nat} {w : Walk K} (hw : c.ants[k]? = some w)
    (hopen : w.Open c.distances) (hmove : move k c = .ok c') :
    ∃ w', w.advanceNearest c.distances = .ok w' ∧ c'.ants = c.ants.set k w' := by
  obtain ⟨here, steps, hcurrent, hsteps, hpos, hweights⟩ :=
    Colony.weights_of_even hd hopen h.even h.visibility
  have hheaviest : Wheel.heaviest (steps.map fun x =>
      c.initialTrail * Power.power x (-c.config.beta)) = leaderIndex (fun a b => a < b) steps := by
    apply Wheel.heaviest_map
    intro x hx y hy hxy
    have hpower := DecreasingPowers.power_lt x y _ (neg_neg_of_pos h.beta_pos) (hpos x hx) hxy
    exact mul_lt_mul_of_pos_left hpower h.trail_pos
  have hunit : (Source.unit c.source).1 ≤ c.config.q0 := by
    rw [h.q0]
    exact (Interval.contains_iff.mp (UniformDraws.unit_mem c.source)).2
  have hchoice := Colony.chooseOrExploit_run hweights c.config.q0 c.source
  rw [if_pos hunit, hheaviest] at hchoice
  rw [move, demand_eq_ok.mpr hw, ok_bind, hchoice, ok_bind] at hmove
  obtain ⟨w₀, hw₀, hrest⟩ := bind_eq_ok.mp hmove
  cases hw.symm.trans (demand_eq_ok.mp hw₀)
  obtain ⟨w', hadvance, hc'⟩ := bind_eq_ok.mp hrest
  cases hc'
  refine ⟨w', ?_, rfl⟩
  rw [Walk.advanceNearest, hcurrent, ok_bind, hsteps, ok_bind]
  exact hadvance

def GreedyStage (d : Distances K) (done : Nat) (w : Walk K) : Prop :=
  ∃ s, w.tour.head? = some s ∧
    if done ≤ d.cities then w.Greedy d s else Walk.nearestFrom d s = .ok w

theorem Exploits.stage_of_perform [DecreasingPowers K] [UniformDraws γ] (h : Exploits c)
    (hc : c.Sound) {acts : List Act} {a : Act}
    (hacts : acts ++ [a] <+: schedule c.distances.cities c.ants.length)
    (hperformed : acts.foldlM perform c = .ok c') (ha : ColonySystem.perform c' a = .ok c'')
    (hstage : ∀ w, 0 < turns Act.ant acts a.ant → c'.ants[a.ant]? = some w →
      GreedyStage c.distances (errands (turns Act.ant acts a.ant)) w) :
    (∀ i ≠ a.ant, c''.ants[i]? = c'.ants[i]?) ∧ ∀ w, c''.ants[a.ant]? = some w →
      GreedyStage c.distances (errands (turns Act.ant acts a.ant + 1)) w := by
  have hn : 0 < c.distances.cities := hc.distances.cities_pos
  have hbefore := (List.prefix_append acts [a]).trans hacts
  obtain ⟨hunder, hexploits⟩ := (h.of_beginning hc hbefore).of_eq hperformed
  have hd : c'.distances = c.distances := hunder.task.distances
  obtain ⟨hk, hlt, hturn⟩ := (timetable hn c.ants.length).next hacts
  obtain ⟨-, hchanges⟩ := (perform_yields hc hacts hunder).of_eq ha
  obtain ⟨w, hw⟩ := hunder.exists_ant hk
  replace hstage := fun hpos => hstage w hpos hw
  have hplace := fun hpos => hunder.stage a.ant w (errands_pos hpos) hw
  generalize turns Act.ant acts a.ant = turn at hlt hturn hstage hplace ⊢
  have hset {w' : Walk K} (hants : c''.ants = c'.ants.set a.ant w')
      (hw' : GreedyStage c.distances (errands (turn + 1)) w') :
      (∀ i ≠ a.ant, c''.ants[i]? = c'.ants[i]?) ∧ ∀ w, c''.ants[a.ant]? = some w →
        GreedyStage c.distances (errands (turn + 1)) w := by
    rw [hants]
    refine ⟨fun i hi => List.getElem?_set_ne hi.symm, fun w hget => ?_⟩
    rw [List.getElem?_set_self (List.getElem?_eq_some_iff.mp hw).1] at hget
    cases hget
    exact hw'
  cases a with
  | place k =>
    cases eq_place_iff.mp hturn.symm
    obtain ⟨-, s, hants⟩ := hchanges
    rw [hd] at hants
    exact hset hants ⟨s, rfl, (if_pos hn).mpr .placed⟩
  | mark k =>
    obtain ⟨hants, -⟩ := hchanges
    obtain ⟨hpos, heven⟩ := eq_mark_iff.mp hturn.symm
    rw [hants, errands_succ_of_even hpos heven]
    refine ⟨fun _ _ => rfl, fun w' hw' => ?_⟩
    cases hw.symm.trans hw'
    exact hstage hpos
  | move k =>
    obtain ⟨hodd, hlast⟩ := eq_move_iff.mp hturn.symm
    have hpos : 0 < turn := by omega
    have hmore : errands turn < c.distances.cities := by
      rw [errands_of_pos hpos]
      omega
    obtain ⟨s, hhead, hgreedy⟩ := hstage hpos
    rw [if_pos hmore.le] at hgreedy
    have hopen := ((Walk.stage_of_le hmore.le).mp (hplace hpos)).1
    rw [← hd] at hopen
    obtain ⟨w', hadvance, hants⟩ := hexploits.move_eq_ok (hd ▸ hc.distances) hw hopen ha
    rw [hd] at hadvance
    have hgreedy' := hgreedy.advance hadvance
    refine hset hants ⟨s, hgreedy'.head?_tour, ?_⟩
    rw [errands_succ_of_odd hodd, if_pos (Nat.succ_le_of_lt hmore)]
    exact hgreedy'
  | close k =>
    have hlast := (eq_close_iff hn).mp hturn.symm
    have hpos : 0 < turn := by omega
    have hall : errands turn = c.distances.cities := by
      rw [errands_of_pos hpos]
      omega
    obtain ⟨s, hhead, hgreedy⟩ := hstage hpos
    rw [if_pos hall.le] at hgreedy
    obtain ⟨hopen, hlength⟩ := (Walk.stage_of_le hall.le).mp (hplace hpos)
    obtain ⟨w₀, w', hw₀, hclose, hants⟩ := Colony.close_eq_ok ha
    cases hw.symm.trans hw₀
    rw [hd] at hclose
    have hnearest := hgreedy.nearestFrom_eq hopen (hlength.trans hall)
    refine hset hants ⟨s, ?_, ?_⟩
    · obtain ⟨city, htour⟩ := Walk.tour_of_close hclose
      rw [htour, List.head?_append, hhead]
      rfl
    · rw [errands_succ_of_odd (by omega), hall, if_neg (Nat.not_succ_le_self _), hnearest, hclose]

theorem Exploits.nearest [DecreasingPowers K] [UniformDraws γ] (h : Exploits c) (hc : c.Sound) :
    Yields (step c) fun c' => c'.ants.length = c.ants.length ∧ ∀ ant ∈ c'.ants,
      ∃ s, ant.tour.head? = some s ∧ Walk.nearestFrom c.distances s = .ok ant := by
  have hn : 0 < c.distances.cities := hc.distances.cities_pos
  have hstages : Yields ((schedule c.distances.cities c.ants.length).foldlM perform c) fun c₁ =>
      (schedule c.distances.cities c.ants.length).foldlM perform c = .ok c₁ ∧
        ∀ i w, 0 < turns Act.ant (schedule c.distances.cities c.ants.length) i →
          c₁.ants[i]? = some w → GreedyStage c.distances
            (errands (turns Act.ant (schedule c.distances.cities c.ants.length) i)) w := by
    refine Yields.foldlM (fun acts c' => acts.foldlM perform c = .ok c' ∧
      ∀ i w, 0 < turns Act.ant acts i → c'.ants[i]? = some w →
        GreedyStage c.distances (errands (turns Act.ant acts i)) w) _ ⟨rfl, ?_⟩ ?_
    · exact fun i w hpos => absurd hpos (Nat.lt_irrefl 0)
    · rintro acts a hacts c' ⟨hperformed, hstage⟩
      have hbefore := (List.prefix_append acts [a]).trans hacts
      have hunder := (underway_of_beginning hc hbefore).of_eq hperformed
      obtain ⟨c'', ha, -⟩ := perform_yields hc hacts hunder
      obtain ⟨hothers, hown⟩ := h.stage_of_perform hc hacts hperformed ha (hstage a.ant)
      refine ⟨c'', ha, ?_, fun i w hpos hw => ?_⟩
      · rw [List.foldlM_append, hperformed, ok_bind, List.foldlM_cons, ha]
        rfl
      · rw [turns_append] at hpos ⊢
        rcases eq_or_ne i a.ant with rfl | hne
        · rw [Function.update_self]
          exact hown w hw
        · rw [Function.update_of_ne hne] at hpos ⊢
          rw [hothers i hne] at hw
          exact hstage i w hpos hw
  obtain ⟨c₁, hperformed, -, hstage⟩ := hstages
  obtain ⟨c', hstep, hcontinues, -, c₂, hgeneration⟩ := step_yields hc
  cases hperformed.symm.trans hgeneration.performed
  refine ⟨c', hstep, hcontinues.task.length_ants, fun ant hant => ?_⟩
  obtain ⟨i, hi⟩ := List.mem_iff_getElem?.mp hant
  have hlt : i < c.ants.length :=
    hcontinues.task.length_ants ▸ (List.getElem?_eq_some_iff.mp hi).1
  have hall := (timetable hn c.ants.length).turns_schedule hlt
  rw [hgeneration.ants] at hi
  obtain ⟨s, hhead, hnearest⟩ := hstage i ant (by omega) hi
  rw [hall, errands_last, if_neg (Nat.not_succ_le_self _)] at hnearest
  exact ⟨s, hhead, hnearest⟩

theorem exploits_of_start {d : Distances K} {config : Config K} {g : γ}
    (hstart : start d config g = .ok c) (hq0 : config.q0 = 1) (hbeta : 0 < config.beta) :
    Exploits c := by
  obtain ⟨-, rfl, rfl, -⟩ := start_sound hstart
  obtain ⟨walk, g', -, hseeded⟩ := start_seed hstart
  obtain ⟨_, _, -, _, -, hcorridor⟩ := corridor_of_start hstart
  obtain ⟨_, -, hcolony⟩ := bind_eq_ok.mp hstart
  refine ⟨hq0, hbeta, Colony.visibility_of_start hcolony, ?_, fun i hi j hj => ?_⟩
  · rw [hcorridor.initialTrail]
    exact hcorridor.trail_pos
  · rw [hseeded.pheromone, Grid.get_uniform _ hi hj]

/-- In the first generation every ant travels the nearest-neighbour tour of its first city. -/
theorem exploitation_starts_nearest [DecreasingPowers K] [UniformDraws γ] {d : Distances K}
    {config : Config K} {g : γ} (hstart : start d config g = .ok c) (hq0 : config.q0 = 1)
    (hbeta : 0 < config.beta) :
    ∃ c', step c = .ok c' ∧ c'.ants.length = config.numAnts ∧ ∀ ant ∈ c'.ants,
      ∃ s, ant.tour.head? = some s ∧ Walk.nearestFrom d s = .ok ant := by
  have hexploits := exploits_of_start hstart hq0 hbeta
  obtain ⟨hc, rfl, -, hants⟩ := start_sound hstart
  rw [← hants]
  exact hexploits.nearest hc

instance : UniformDraws Clock where
  unit_mem clock := by
    rw [Interval.contains_iff]
    constructor
    · show (0 : ℚ) ≤ 1 / (clock.ticks + 2)
      positivity
    · show (1 : ℚ) / (clock.ticks + 2) ≤ 1
      rw [div_le_one (by positivity)]
      linarith [(Nat.cast_nonneg clock.ticks : (0 : ℚ) ≤ clock.ticks)]
  between_mem lo hi clock h _ := by
    have hwidth : 0 ≤ hi - lo := sub_nonneg.mpr h.le
    have hshare : (hi - lo) / (clock.ticks + 1) ≤ hi - lo :=
      div_le_self hwidth (by linarith [(Nat.cast_nonneg clock.ticks : (0 : ℚ) ≤ clock.ticks)])
    rw [Interval.contains_iff]
    constructor
    · show lo ≤ lo + (hi - lo) / (clock.ticks + 1)
      exact le_add_of_nonneg_right (by positivity)
    · show lo + (hi - lo) / (clock.ticks + 1) ≤ hi
      linarith

theorem exploitation_starts_nearest_threeCities :
    letI := unitPowers ℚ
    ∃ c c' : ColonySystem Clock ℚ,
      start threeCities ⟨2, 3, 1, 1, 1 / 10, 1 / 10, 7⟩ ⟨7⟩ = .ok c ∧ step c = .ok c' ∧
      ∀ ant ∈ c'.ants, ∃ s, ant.tour.head? = some s ∧
        Walk.nearestFrom threeCities s = .ok ant := by
  let := unitPowers ℚ
  have := decreasingPowers_unit ℚ
  obtain ⟨c, hstart⟩ : ∃ c : ColonySystem Clock ℚ,
      start threeCities ⟨2, 3, 1, 1, 1 / 10, 1 / 10, 7⟩ ⟨7⟩ = .ok c :=
    exists_eq_ok (by decide +kernel)
  obtain ⟨c', hstep, -, hants⟩ := exploitation_starts_nearest hstart rfl one_pos
  exact ⟨c, c', hstart, hstep, hants⟩

end ColonySystem
end Exact
end PopulationSearch
