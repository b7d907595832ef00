import PopulationSearch.Proofs.Rescaling
import PopulationSearch.Proofs.Deposits

/-! Colonies in another unit of length. Levels are inverse to lengths and visibilities have a unit
of their own, so all weights of a choice are multiplied by one factor. -/

namespace PopulationSearch

def Pheromone.Positive {α : Type} [Scalar α] (p : Pheromone α) : Prop :=
  ∀ i j level, p.get i j = .ok level → 0 < level

variable {K : Type} [Field K] {f : K}

theorem one_div_scale (length : K) : 1 / (f * length) = 1 / length / f := by
  rw [div_div, mul_comm]

theorem Pheromone.along_scale {rule rule' : Nat → Nat → Pheromone K → Except Fault (Pheromone K)}
    (hrule : ∀ i j p, rule' i j (p.map (· / f)) = Grid.map (· / f) <$> rule i j p)
    (tour : List Nat) (p : Pheromone K) :
    along rule' tour (p.map (· / f)) = Grid.map (· / f) <$> along rule tour p :=
  foldlM_comm (fun p leg => hrule leg.1 leg.2 p) _ p

variable [LinearOrder K] [FloorSemiring K] {κ γ : Type} {v : K}

attribute [local instance] Scalar.exact growingSums_exact nonnegativeSums_exact

section Choices

variable {p : Pheromone K} {visibility : Grid K} {ant : Walk K}

theorem Colony.weights_scale :
    weights (p.map (· / f)) (visibility.map (v * ·)) (ant.scale f) =
      List.map (v / f * ·) <$> weights p visibility ant := by
  have hcurrent : (ant.scale f).current = ant.current := rfl
  rw [weights, weights, hcurrent, map_bind]
  refine bind_congr fun here => mapM_comm _ fun there _ => ?_
  have hweight (level visible : K) : level / f * (v * visible) = v / f * (level * visible) := by
    ring
  simp [Grid.get_map, hweight]

theorem Colony.chooseOrExploit_scale [IsStrictOrderedRing K] [Source γ K] (hf : 0 < f) (hv : 0 < v)
    (q0 : K) :
    (chooseOrExploit (p.map (· / f)) (visibility.map (v * ·)) q0 (ant.scale f) : Draw γ Nat) =
      chooseOrExploit p visibility q0 ant := by
  have hr : 0 < v / f := div_pos hv hf
  simp [chooseOrExploit, weights_scale, Wheel.heaviest_map_mul hr, Wheel.roulette_map_mul hr.ne',
    Scalar.isFinite]

variable [IsStrictOrderedRing K] [Power K] [MultiplicativePowers K]

theorem Colony.wheelWeight_scale (hp : p.Positive) (hf : 0 < f) (hv : 0 < v) (alpha : K)
    (here there : Nat) :
    wheelWeight (p.map (· / f)) (visibility.map (v * ·)) alpha here there =
      (Power.power f⁻¹ alpha * v * ·) <$> wheelWeight p visibility alpha here there := by
  rw [wheelWeight, wheelWeight, Grid.get_map, Grid.get_map]
  cases hlevel : p.get here there with
  | error e => rfl
  | ok level =>
    cases visibility.get here there with
    | error e => rfl
    | ok visible =>
      -- the level is positive, so its power splits into that of the factor and its own
      have hfactor := MultiplicativePowers.power_pos f⁻¹ alpha (inv_pos.mpr hf)
      have hpower : Power.power (level / f) alpha =
          Power.power f⁻¹ alpha * Power.power level alpha := by
        rw [div_eq_inv_mul]
        exact MultiplicativePowers.power_mul _ _ _ (inv_pos.mpr hf) (hp _ _ _ hlevel)
      have hweight : Power.power (level / f) alpha * (v * visible) =
          Power.power f⁻¹ alpha * v * (Power.power level alpha * visible) := by
        rw [hpower]
        ring
      have hzero : (Power.power f⁻¹ alpha * v * (Power.power level alpha * visible) == 0) =
          (Power.power level alpha * visible == 0) := by
        rw [Bool.eq_iff_iff, beq_iff_eq, beq_iff_eq, mul_eq_zero_iff_left (mul_pos hfactor hv).ne']
      simp only [Except.map_ok, liftM_ok, ok_bind, hweight, hzero]
      split
      · rfl
      · rfl

omit [IsStrictOrderedRing K] [MultiplicativePowers K] in
theorem Colony.wheelWeights_exact (alpha : K) : wheelWeights p visibility alpha ant =
    (liftM ant.current : Except (Failure K) Nat) >>= fun here =>
      ant.unvisited.mapM (wheelWeight p visibility alpha here) :=
  bind_congr fun _ => bind_pure _

theorem Colony.wheelWeights_scale (hp : p.Positive) (hf : 0 < f) (hv : 0 < v) (alpha : K) :
    wheelWeights (p.map (· / f)) (visibility.map (v * ·)) alpha (ant.scale f) =
      List.map (Power.power f⁻¹ alpha * v * ·) <$> wheelWeights p visibility alpha ant := by
  have hcurrent : (ant.scale f).current = ant.current := rfl
  rw [wheelWeights_exact, wheelWeights_exact, hcurrent, map_bind]
  refine bind_congr fun here => mapM_comm _ fun there _ => ?_
  exact wheelWeight_scale hp hf hv alpha here there

theorem Colony.choose_scale [Source γ K] (hp : p.Positive) (hf : 0 < f) (hv : 0 < v) (alpha : K)
    (g : γ) :
    choose (p.map (· / f)) (visibility.map (v * ·)) alpha (ant.scale f) g =
      choose p visibility alpha ant g := by
  have hfactor := mul_pos (MultiplicativePowers.power_pos f⁻¹ alpha (inv_pos.mpr hf)) hv
  rw [choose, wheelWeights_scale hp hf hv, bind_map_left, choose]
  simp only [Wheel.roulette_map_mul hfactor.ne']

end Choices

namespace Pheromone

variable {p : Pheromone K}

theorem blend_scale (rate goal level : K) :
    blend rate (goal / f) (level / f) = blend rate goal level / f := by
  simp only [blend]
  ring

theorem localUpdate_scale (rho trail : K) (i j : Nat) :
    localUpdate rho (trail / f) i j (p.map (· / f)) =
      Grid.map (· / f) <$> p.localUpdate rho trail i j :=
  Grid.modify_map (blend_scale rho trail) i j

theorem reinforce_scale (alpha goal : K) (i j : Nat) (p : Pheromone K) :
    reinforce alpha (goal / f) i j (p.map (· / f)) =
      Grid.map (· / f) <$> p.reinforce alpha goal i j :=
  Grid.modify_map (blend_scale alpha goal) i j

theorem deposit_scale (amount : K) (i j : Nat) (p : Pheromone K) :
    deposit (amount / f) i j (p.map (· / f)) = Grid.map (· / f) <$> p.deposit amount i j :=
  Grid.modify_map (fun level => (add_div level amount f).symm) i j

theorem evaporate_scale [IsStrictOrderedRing K] (hf : 0 < f) (rho floor : K) :
    evaporate rho (floor / f) (p.map (· / f)) = (p.evaporate rho floor).map (· / f) := by
  have hlevel (level : K) : Scalar.larger ((1 - rho) * (level / f)) (floor / f) =
      Scalar.larger ((1 - rho) * level) floor / f := by
    simp only [Scalar.larger, Scalar.isNaN, ← mul_div_assoc, div_lt_div_iff_of_pos_right hf,
      ite_div]
  simp [evaporate, Grid.map, Function.comp_def, hlevel]

end Pheromone

namespace Colony

variable {c : Colony κ γ K}

theorem place_scale [Source γ K] (k : Nat) :
    (c.scale f v).place k = scale f v <$> c.place k := by
  simp [place, scale, List.map_set]

theorem advance_scale (k position : Nat) (g : γ) :
    (c.scale f v).advance k position g = scale f v <$> c.advance k position g := by
  simp [advance, scale, demand_map, Walk.advance_scale, List.map_set]

theorem close_scale (k : Nat) : (c.scale f v).close k = scale f v <$> c.close k := by
  simp [close, scale, demand_map, Walk.close_scale, List.map_set]

theorem demand_ant_scale (k : Nat) :
    demand (c.scale f v).ants[k]? = Walk.scale f <$> demand c.ants[k]? := by
  simp [scale, demand_map]

theorem offerLeader_scale [IsStrictOrderedRing K] (hf : 0 < f) :
    (c.scale f v).offerLeader = scale f v <$> c.offerLeader := by
  have hleader := leader?_map_scale hf Walk.length (h := Walk.scale f) (fun _ => rfl) c.ants
  have hoffer (ant : Walk K) : (c.progress.scale f).offer (fun a b => a < b) (ant.scale f).tour
      (ant.scale f).length = (c.progress.offer (fun a b => a < b) ant.tour ant.length).scale f :=
    Progress.offer_scale hf ant.tour ant.length
  simp [offerLeader, scale, hleader, demand_map, hoffer]

theorem start_scale [IsStrictOrderedRing K] [Source γ K] [Power K] [MultiplicativePowers K]
    (hf : 0 < f) {config : κ} {numAnts : Nat} {beta : K} {trailOf : K → K} {d : Distances K}
    {g : γ} (htrail : ∀ length, trailOf (f * length) = trailOf length / f)
    (h : start config numAnts beta trailOf d g = .ok c) :
    start config numAnts beta trailOf (d.scale f) g =
      .ok (c.scale f (Power.power f (-beta))) := by
  obtain ⟨_, hd, h⟩ := bind_eq_ok.mp h
  obtain ⟨⟨walk, g'⟩, hwalk, h⟩ := bind_eq_ok.mp h
  replace hd : d.Sound := d.validate_meets.of_failure.of_eq hd
  have hwalk' : (Walk.nearest (d.scale f)).run g = .ok (walk.scale f, g') := by
    rw [Walk.nearest_scale hf, StateT.run_map, liftM_fault_eq_ok.mp hwalk]
    rfl
  have hvisibility := Distances.visibility_scale hd hf beta
  cases hvisible : d.visibility beta with
  | error failure =>
    rw [hvisible] at h
    cases h
  | ok visible =>
    rw [hvisible] at h hvisibility
    cases h
    refine bind_eq_ok.mpr ⟨(), congrArg liftM (hd.scale hf).validate_eq_ok,
      bind_eq_ok.mpr ⟨_, liftM_fault_eq_ok.mpr hwalk', ?_⟩⟩
    dsimp only
    have hlength : (walk.scale f).length = f * walk.length := rfl
    rw [hvisibility, hlength, htrail]
    simp only [scale, Grid.uniform_map, List.map_replicate, Walk.idle_scale]
    rfl

theorem with_progress_scale {p p' : Progress (List Nat) K} (h : p' = p.scale f) :
    { c.scale f v with progress := p' } = ({ c with progress := p } : Colony κ γ K).scale f v := by
  rw [h]
  rfl

theorem with_pheromone_scale {x x' : Except Fault (Pheromone K)}
    (h : x' = Grid.map (· / f) <$> x) :
    (do
      let p ← x'
      return { c.scale f v with pheromone := p }) = scale f v <$> do
      let p ← x
      return { c with pheromone := p } := by
  rw [h, bind_map_left, map_bind]
  rfl

end Colony

namespace ColonySystem

variable {c : ColonySystem γ K}

theorem mark_scale (k : Nat) : mark k (c.scale f v) = Colony.scale f v <$> mark k c := by
  rw [mark, Colony.demand_ant_scale, bind_map_left, mark, map_bind]
  refine bind_congr fun ant => ?_
  have hlast : (ant.scale f).lastLeg? = ant.lastLeg? := rfl
  rw [hlast]
  cases ant.lastLeg? with
  | none => rfl
  | some leg => exact Colony.with_pheromone_scale (Pheromone.localUpdate_scale ..)

theorem reinforceBest_scale :
    reinforceBest (c.scale f v) = Colony.scale f v <$> reinforceBest c := by
  have hgoal : 1 / (c.scale f v).progress.best.quality = 1 / c.progress.best.quality / f :=
    one_div_scale _
  rw [reinforceBest, hgoal]
  exact Colony.with_pheromone_scale (Pheromone.along_scale (Pheromone.reinforce_scale _ _) _ _)

variable [IsStrictOrderedRing K] [Source γ K]

theorem move_scale (hf : 0 < f) (hv : 0 < v) (k : Nat) :
    move k (c.scale f v) = Colony.scale f v <$> move k c := by
  rw [move, Colony.demand_ant_scale, bind_map_left, move, map_bind]
  refine bind_congr fun ant => ?_
  have hchoice : (Colony.chooseOrExploit (c.scale f v).pheromone (c.scale f v).visibility
      (c.scale f v).config.q0 (ant.scale f) : Draw γ Nat) =
      Colony.chooseOrExploit c.pheromone c.visibility c.config.q0 ant :=
    Colony.chooseOrExploit_scale hf hv _
  rw [hchoice, map_bind]
  exact bind_congr fun r => Colony.advance_scale k r.1 r.2

theorem perform_scale (hf : 0 < f) (hv : 0 < v) (c : ColonySystem γ K) (a : Act) :
    perform (c.scale f v) a = Colony.scale f v <$> perform c a := by
  cases a with
  | place k => exact Colony.place_scale k
  | move k => exact move_scale hf hv k
  | mark k => exact mark_scale k
  | close k => exact Colony.close_scale k

theorem step_scale (hf : 0 < f) (hv : 0 < v) (c : ColonySystem γ K) :
    step (c.scale f v) = Colony.scale f v <$> step c := by
  have hschedule : schedule (c.scale f v).distances.cities (c.scale f v).ants.length =
      schedule c.distances.cities c.ants.length := by simp [Colony.scale]
  rw [step, hschedule, foldlM_comm (perform_scale hf hv), bind_map_left, step, map_bind]
  refine bind_congr fun c₁ => ?_
  rw [Colony.offerLeader_scale hf, bind_map_left, map_bind]
  refine bind_congr fun c₂ => ?_
  rw [reinforceBest_scale, bind_map_left, map_bind]
  refine bind_congr fun c₃ => ?_
  exact congrArg Except.ok (Colony.with_progress_scale Progress.advance_scale)

theorem after_scale (hf : 0 < f) (hv : 0 < v) (calls : List Call) (k : Nat)
    (c : ColonySystem γ K) : after calls k (c.scale f v) = Colony.scale f v <$> after calls k c :=
  afterCalls_comm (fun _ => rfl) (fun _ => rfl) (fun _ => rfl) (step_scale hf hv)
    (fun _ => Colony.with_progress_scale Progress.finish_scale) calls k c

theorem start_scale [Power K] [MultiplicativePowers K] (hf : 0 < f) {d : Distances K}
    {config : Config K} {g : γ} (h : start d config g = .ok c) :
    start (d.scale f) config g = .ok (c.scale f (Power.power f (-config.beta))) := by
  obtain ⟨_, hconfig, h⟩ := bind_eq_ok.mp h
  refine bind_eq_ok.mpr ⟨_, hconfig, Colony.start_scale hf (fun length => ?_) h⟩
  rw [mul_left_comm]
  exact one_div_scale _

end ColonySystem

namespace AntSystem

variable [IsStrictOrderedRing K] [Power K] [MultiplicativePowers K] {c : AntSystem γ K}

omit [Power K] [MultiplicativePowers K] in
theorem renewTrail_scale (hf : 0 < f) :
    renewTrail (c.scale f v) = Colony.scale f v <$> renewTrail c := by
  refine Colony.with_pheromone_scale ?_
  have hdeposits (ant : Walk K) (p : Pheromone K) :
      Pheromone.along (Pheromone.deposit (1 / (ant.scale f).length)) (ant.scale f).tour
          (p.map (· / f)) =
        Grid.map (· / f) <$> Pheromone.along (Pheromone.deposit (1 / ant.length)) ant.tour p := by
    have hamount : 1 / (ant.scale f).length = 1 / ant.length / f := one_div_scale _
    rw [hamount]
    exact Pheromone.along_scale (Pheromone.deposit_scale _) _ p
  have hevaporate : (c.scale f v).pheromone.evaporate (c.scale f v).config.rho
      (c.scale f v).initialTrail =
        (c.pheromone.evaporate c.config.rho c.initialTrail).map (· / f) :=
    Pheromone.evaporate_scale hf _ _
  have hants : (c.scale f v).ants = c.ants.map (Walk.scale f) := rfl
  rw [hevaporate, hants, List.foldlM_map]
  exact foldlM_comm (fun p ant => hdeposits ant p) _ _

variable [Source γ K]

theorem move_scale (hp : c.pheromone.Positive) (hf : 0 < f) (hv : 0 < v) (k : Nat) :
    move k (c.scale f v) = Colony.scale f v <$> move k c := by
  rw [move, Colony.demand_ant_scale, liftM_map_eq, bind_map_left, move, map_bind]
  refine bind_congr fun ant => ?_
  have hchoice : Colony.choose (c.scale f v).pheromone (c.scale f v).visibility
      (c.scale f v).config.alpha (ant.scale f) (c.scale f v).source =
      Colony.choose c.pheromone c.visibility c.config.alpha ant c.source :=
    Colony.choose_scale hp hf hv _ _
  rw [hchoice, map_bind]
  refine bind_congr fun r => ?_
  exact (congrArg liftM (Colony.advance_scale k r.1 r.2)).trans (liftM_map_eq _ _)

theorem perform_scale (hp : c.pheromone.Positive) (hf : 0 < f) (hv : 0 < v) (a : Act) :
    perform (c.scale f v) a = Colony.scale f v <$> perform c a := by
  cases a with
  | place k => exact (congrArg liftM (Colony.place_scale k)).trans (liftM_map_eq _ _)
  | move k => exact move_scale hp hf hv k
  | close k => exact (congrArg liftM (Colony.close_scale k)).trans (liftM_map_eq _ _)

theorem performAll_scale (hp : c.pheromone.Positive) (hf : 0 < f) (hv : 0 < v) (acts : List Act) :
    performAll acts (c.scale f v) = Prod.map (Colony.scale f v) id <$> performAll acts c := by
  induction acts generalizing c with
  | nil => rfl
  | cons a acts ih =>
    rw [performAll, perform_scale hp hf hv, performAll]
    rcases hperform : perform c a with (e | fault) | c'
    · rfl
    · rfl
    · have hsame := congrArg Colony.pheromone (perform_eq_ok hperform).1
      exact ih (hsame ▸ hp)

theorem step_scale (hp : c.pheromone.Positive) (hf : 0 < f) (hv : 0 < v) :
    step (c.scale f v) = Prod.map (Colony.scale f v) id <$> step c := by
  have hschedule : schedule (c.scale f v).distances.cities (c.scale f v).ants.length =
      schedule c.distances.cities c.ants.length := by simp [Colony.scale]
  rw [step, hschedule, performAll_scale hp hf hv, bind_map_left, step, map_bind]
  refine bind_congr fun r => ?_
  obtain ⟨c₁, _ | e⟩ := r
  · show (do
      let c₂ ← (c₁.scale f v).offerLeader
      let c₃ ← renewTrail c₂
      return ({ c₃ with progress := c₃.progress.advance }, none)) = _
    rw [Colony.offerLeader_scale hf, bind_map_left]
    dsimp only
    rw [map_bind]
    refine bind_congr fun c₂ => ?_
    rw [renewTrail_scale hf, bind_map_left, map_bind]
    refine bind_congr fun c₃ => ?_
    exact congrArg (fun c => Except.ok (c, none))
      (Colony.with_progress_scale Progress.advance_scale)
  · exact congrArg (fun c => Except.ok (c, some e))
      (Colony.with_progress_scale (Progress.abort_scale e))

structure Grounded (c : AntSystem γ K) : Prop where
  sound : c.Sound
  floored : Floored c
  trail_pos : 0 < c.initialTrail

omit [IsStrictOrderedRing K] [Power K] [MultiplicativePowers K] [Source γ K] in
theorem Grounded.positive (h : Grounded c) : c.pheromone.Positive := by
  intro i j level hlevel
  obtain ⟨a, ha, b, hb, hab⟩ := h.sound.pheromone.exists_get_eq hlevel
  obtain ⟨level', hlevel', hle⟩ := h.floored.level a ha b hb
  cases hab.symm.trans hlevel'
  exact h.trail_pos.trans_le hle

omit [IsStrictOrderedRing K] [Power K] [MultiplicativePowers K] [Source γ K] in
theorem Grounded.finished (h : Grounded c) : Grounded (finished c) :=
  ⟨{ h.sound with }, { h.floored with }, h.trail_pos⟩

variable [BoundedIndex γ]

omit [MultiplicativePowers K] in
theorem Grounded.step (h : Grounded c) : Yields (step c) fun r => Grounded r.1 := by
  refine (h.floored.step h.sound).mono fun r hr => ⟨hr.1.sound, hr.2, ?_⟩
  rw [hr.1.task.initialTrail]
  exact h.trail_pos

theorem Grounded.steps_scale (h : Grounded c) (hf : 0 < f) (hv : 0 < v) (k : Nat) :
    steps k (c.scale f v) = Prod.map (Colony.scale f v) id <$> steps k c := by
  induction k generalizing c with
  | zero => rfl
  | succ k ih =>
    obtain ⟨⟨c', e⟩, hstep, h'⟩ := h.step
    rw [steps, step_scale h.positive hf hv, steps, hstep]
    cases e with
    | none => exact ih h'
    | some e => rfl

theorem Grounded.run_scale (h : Grounded c) (hf : 0 < f) (hv : 0 < v) :
    run (c.scale f v) = Prod.map (Colony.scale f v) id <$> run c := by
  have hsteps := h.steps_scale hf hv c.config.maxGenerations
  rw [run, run]
  change steps c.config.maxGenerations (c.scale f v) >>= _ = _
  rw [hsteps, bind_map_left, map_bind]
  refine bind_congr fun r => ?_
  obtain ⟨c', _ | e⟩ := r
  · exact congrArg (fun c => Except.ok (c, none))
      (Colony.with_progress_scale Progress.finish_scale)
  · rfl

theorem Grounded.after_scale (h : Grounded c) (hf : 0 < f) (hv : 0 < v) (calls : List Call)
    (k : Nat) : after calls k (c.scale f v) = Colony.scale f v <$> after calls k c := by
  have hstep : ∀ c : AntSystem γ K, Grounded c → Yields (Prod.fst <$> AntSystem.step c) Grounded :=
    fun _ h => h.step.map fun _ => id
  have hrun : ∀ c : AntSystem γ K, Grounded c → Yields (Prod.fst <$> run c) Grounded :=
    fun _ h => (run_keeps (fun _ h => h.step) (fun _ h => h.finished) h).map fun _ => id
  obtain ⟨c', hcalls, h'⟩ := afterCalls_yields Grounded hstep hrun calls h
  have hscaled : afterCalls (fun c => Prod.fst <$> AntSystem.step c) (fun c => Prod.fst <$> run c)
      calls (c.scale f v) = Colony.scale f v <$> .ok c' := by
    rw [← hcalls]
    refine foldlM_comm_of_keeps (I := Grounded) (fun c call h => ?_) (fun c call h => ?_) calls h
    · cases call with
      | step => simp [step_scale h.positive hf hv]
      | run => simp [h.run_scale hf hv]
    · cases call with
      | step => exact hstep c h
      | run => exact hrun c h
  rw [after, hscaled, after, hcalls]
  simp only [Except.map_ok, ok_bind]
  rw [h'.steps_scale hf hv, Functor.map_map, Functor.map_map]
  rfl

omit [BoundedIndex γ] in
theorem start_scale (hf : 0 < f) {d : Distances K} {config : Config K} {g : γ}
    (h : start d config g = .ok c) :
    start (d.scale f) config g = .ok (c.scale f (Power.power f (-config.beta))) := by
  obtain ⟨_, hconfig, h⟩ := bind_eq_ok.mp h
  refine bind_eq_ok.mpr ⟨_, hconfig, Colony.start_scale hf (fun length => ?_) h⟩
  rw [div_div, mul_comm]

omit [MultiplicativePowers K] in
theorem grounded_of_start {d : Distances K} {config : Config K} {g : γ}
    (h : start d config g = .ok c) : Grounded c := by
  obtain ⟨hc, rfl, rfl, hants⟩ := start_sound h
  obtain ⟨walk, g', -, hseeded⟩ := start_seed h
  have hlength := hseeded.closed.zero_lt_length hc.distances
  have hmanned : 0 < c.config.numAnts := hants ▸ List.length_pos_of_ne_nil hc.manned
  have htrail : 0 < c.initialTrail := by
    rw [hseeded.initialTrail]
    exact div_pos (Nat.cast_pos.mpr hmanned) hlength
  refine ⟨hc, ⟨htrail.le, fun i hi j hj => ⟨c.initialTrail, ?_, le_rfl⟩⟩, htrail⟩
  rw [hseeded.pheromone, Grid.get_uniform _ hi hj]

end AntSystem

end PopulationSearch
