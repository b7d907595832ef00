import PopulationSearch.Proofs.Feasibility

/-! Generations that are given up. The next one places all ants anew, so nothing of the half-built
tours remains. -/

namespace PopulationSearch.AntSystem

variable {γ α : Type} [Scalar α] [Power α] [Source γ α] {c c' : AntSystem γ α}
  {r : AntSystem γ α × Option (Error α)}

section Acts

theorem perform_eq_ok {a : Act} (h : perform c a = .ok c') :
    c' = { c with ants := c'.ants, source := c'.source } ∧
      ∀ i ≠ a.ant, c'.ants[i]? = c.ants[i]? := by
  cases a with
  | place k =>
    obtain ⟨⟨city, g⟩, -, h⟩ := bind_eq_ok.mp (liftM_eq_ok.mp h)
    cases h
    exact ⟨rfl, fun i hi => List.getElem?_set_ne (Ne.symm hi)⟩
  | move k =>
    obtain ⟨w, -, h⟩ := bind_eq_ok.mp h
    obtain ⟨⟨position, g⟩, -, h⟩ := bind_eq_ok.mp h
    obtain ⟨w, -, h⟩ := bind_eq_ok.mp (liftM_eq_ok.mp h)
    obtain ⟨w', -, h⟩ := bind_eq_ok.mp h
    cases h
    exact ⟨rfl, fun i hi => List.getElem?_set_ne (Ne.symm hi)⟩
  | close k =>
    obtain ⟨w, -, h⟩ := bind_eq_ok.mp (liftM_eq_ok.mp h)
    obtain ⟨w', -, h⟩ := bind_eq_ok.mp h
    cases h
    exact ⟨rfl, fun i hi => List.getElem?_set_ne (Ne.symm hi)⟩

theorem performAll_keeps (I : AntSystem γ α → Prop) {acts : List Act}
    (hstep : ∀ a ∈ acts, ∀ c c', I c → perform c a = .ok c' → I c') (h₀ : I c)
    (h : performAll acts c = .ok r) : I r.1 := by
  induction acts generalizing c with
  | nil =>
    cases h
    exact h₀
  | cons a acts ih =>
    rw [performAll] at h
    rcases hperform : perform c a with (e | f) | c₁
    · rw [hperform] at h
      cases h
      exact h₀
    · rw [hperform] at h
      cases h
    · rw [hperform] at h
      exact ih (fun b hb => hstep b (List.mem_cons_of_mem _ hb))
        (hstep a (List.mem_cons_self ..) c c₁ h₀ hperform) h

theorem unchanged_of_performAll {acts : List Act} (h : performAll acts c = .ok r) :
    r.1 = { c with ants := r.1.ants, source := r.1.source } := by
  refine performAll_keeps (fun x => x = { c with ants := x.ants, source := x.source }) ?_ rfl h
  intro a _ x y hx hperform
  rw [(perform_eq_ok hperform).1, hx]

theorem performAll_append (acts acts' : List Act) (c : AntSystem γ α) :
    performAll (acts ++ acts') c = performAll acts c >>= fun r => match r with
      | (c, none) => performAll acts' c
      | (c, some e) => .ok (c, some e) := by
  induction acts generalizing c with
  | nil => rfl
  | cons a acts ih =>
    rw [List.cons_append, performAll, performAll]
    rcases perform c a with (e | f) | c₁
    · rfl
    · rfl
    · exact ih c₁

theorem exists_refused {acts : List Act} {e : Error α} (h : performAll acts c = .ok (c', some e)) :
    ∃ done a, done ++ [a] <+: acts ∧ performAll done c = .ok (c', none) ∧
      perform c' a = .error (.invalid e) := by
  induction acts generalizing c with
  | nil => cases h
  | cons a acts ih =>
    rw [performAll] at h
    rcases hperform : perform c a with (e' | f) | c₁
    · rw [hperform] at h
      cases h
      exact ⟨[], a, List.prefix_append [a] acts, rfl, hperform⟩
    · rw [hperform] at h
      cases h
    · rw [hperform] at h
      obtain ⟨done, b, hdone, hperformed, hrefused⟩ := ih h
      refine ⟨a :: done, b, (List.prefix_cons_inj a).mpr hdone, ?_, hrefused⟩
      rw [performAll, hperform]
      exact hperformed

theorem performAll_places (first count : Nat) (c : AntSystem γ α)
    (h : first + count ≤ c.ants.length) :
    performAll ((List.range' first count).map .place) c =
      (Draw.times count (Draw.below c.distances.cities)).run c.source >>= fun drawn =>
        .ok ({ c with
          ants := c.ants.take first ++ drawn.1.map (Walk.placed c.distances.cities) ++
            c.ants.drop (first + count)
          source := drawn.2 }, none) := by
  induction count generalizing first c with
  | zero =>
    have hants : c.ants.take first ++ [] ++ c.ants.drop (first + 0) = c.ants := by
      rw [List.append_nil, Nat.add_zero, List.take_append_drop]
    exact congrArg (fun ants => Except.ok ({ c with ants := ants }, none)) hants.symm
  | succ count ih =>
    have hplace : perform c (.place first) =
        liftM ((Draw.below c.distances.cities).run c.source >>= fun drawn => (.ok { c with
          ants := c.ants.set first (Walk.placed c.distances.cities drawn.1)
          source := drawn.2 } : Except Fault (AntSystem γ α))) := rfl
    rw [List.range'_succ, List.map_cons, performAll, hplace, Draw.times, StateT.run_bind]
    cases (Draw.below c.distances.cities).run c.source with
    | error f => rfl
    | ok drawn =>
      obtain ⟨city, g⟩ := drawn
      have hplaced := ih (first + 1) { c with
        ants := c.ants.set first (Walk.placed c.distances.cities city)
        source := g } (by rw [List.length_set]; omega)
      refine hplaced.trans ?_
      have htake := take_succ_set (l := c.ants) (i := first) (by omega)
        (Walk.placed c.distances.cities city)
      have hdrop : (c.ants.set first (Walk.placed c.distances.cities city)).drop
          (first + 1 + count) = c.ants.drop (first + (count + 1)) := by
        rw [List.drop_set_of_lt (by omega), Nat.add_assoc, Nat.add_comm 1]
      dsimp only
      rw [ok_bind, StateT.run_bind, htake, hdrop]
      cases (Draw.times count (Draw.below c.distances.cities)).run g with
      | error f => rfl
      | ok drawn =>
        obtain ⟨cities, g'⟩ := drawn
        simp only [ok_bind, StateT.run_pure, pure_bind, List.map_cons, List.append_assoc,
          List.cons_append, List.nil_append]

theorem performAll_places_all (c : AntSystem γ α) :
    performAll ((List.range c.ants.length).map .place) c =
      (Draw.times c.ants.length (Draw.below c.distances.cities)).run c.source >>= fun drawn =>
        .ok ({ c with
          ants := drawn.1.map (Walk.placed c.distances.cities), source := drawn.2 }, none) := by
  have hplaces := performAll_places 0 c.ants.length c (Nat.le_of_eq (Nat.zero_add _))
  simpa only [← List.range_eq_range', List.take_zero, List.nil_append, Nat.zero_add,
    List.drop_length, List.append_nil] using hplaces

def tourActs (cities k : Nat) : List Act := List.replicate (cities - 1) (.move k) ++ [.close k]

theorem ant_of_mem_tourActs {n k : Nat} {a : Act} (h : a ∈ tourActs n k) : a.ant = k := by
  rcases List.mem_append.mp h with h | h
  · rw [(List.mem_replicate.mp h).2, Act.ant]
  · rw [List.mem_singleton.mp h, Act.ant]

theorem performAll_schedule (c : AntSystem γ α) :
    performAll (schedule c.distances.cities c.ants.length) c =
      (Draw.times c.ants.length (Draw.below c.distances.cities)).run c.source >>= fun drawn =>
        performAll ((List.range c.ants.length).flatMap (tourActs c.distances.cities))
          { c with ants := drawn.1.map (Walk.placed c.distances.cities), source := drawn.2 } := by
  rw [schedule, performAll_append, performAll_places_all, bind_assoc]
  rfl

theorem step_with_ants {ants : List (Walk α)} (h : ants.length = c.ants.length) :
    step { c with ants := ants } = step c := by
  have hschedule := performAll_schedule { c with ants := ants }
  simp only [h] at hschedule
  unfold step
  simp only [h]
  rw [hschedule, performAll_schedule]

theorem perform_eq_error {a : Act} {e : Error α} (h : perform c a = .error (.invalid e)) :
    ∃ k w here there, a = .move k ∧ c.ants[k]? = some w ∧ e.Names here there ∧
      w.tour.getLast? = some here ∧ there ∈ w.unvisited := by
  cases a with
  | place k => exact absurd h (liftM_ne_invalid _ e)
  | close k => exact absurd h (liftM_ne_invalid _ e)
  | move k =>
    rcases bind_eq_error.mp h with h | ⟨w, hw, h⟩
    · exact absurd h (liftM_ne_invalid _ e)
    rw [liftM_eq_ok, demand_eq_ok] at hw
    rcases bind_eq_error.mp h with h | ⟨drawn, -, h⟩
    · obtain ⟨here, there, hnames, hhere, hthere⟩ := Colony.choose_eq_error h
      exact ⟨k, w, here, there, rfl, hw, hnames, hhere, hthere⟩
    · exact absurd h (liftM_ne_invalid _ e)

theorem acts_before_move {n m k : Nat} {done : List Act}
    (h : done ++ [.move k] <+: schedule n m) :
    k < m ∧ ∃ own, (∀ a ∈ own, a = .move k) ∧
      done = (List.range m).map .place ++ ((List.range k).flatMap (tourActs n) ++ own) := by
  -- a move is no placement, so the schedule has come to the tours
  rcases prefix_append_cases h with hplaces | ⟨rest, rfl, hrest⟩
  · have hmem := hplaces.mem (List.mem_append_right _ (List.mem_singleton_self (Act.move k)))
    simp at hmem
  obtain ⟨i, hi, own, rfl, hown⟩ := prefix_flatMap_range hrest
  have hmem := hown.mem (List.mem_append_right _ (List.mem_singleton_self (Act.move k)))
  simp only [List.mem_append, List.mem_replicate, List.mem_singleton, Act.move.injEq,
    reduceCtorEq, or_false] at hmem
  obtain ⟨-, rfl⟩ := hmem
  refine ⟨hi, own, fun a ha => ?_, rfl⟩
  rcases prefix_append_cases hown with hmoves | ⟨last, -, hlast⟩
  · exact (List.mem_replicate.mp (hmoves.mem (List.mem_append_left _ ha))).2
  · have hmem := hlast.mem (List.mem_append_right _ (List.mem_singleton_self (Act.move k)))
    simp at hmem

end Acts

/-- A generation that began as `c` stopped at its ant `k`, before an edge that the error names. -/
structure Stranded (c : AntSystem γ α) (e : Error α) (c' : AntSystem γ α) (k here there : Nat) :
    Prop where
  ant_lt : k < c.ants.length
  names : e.Names here there
  home : ∀ i < k, ∃ w, c'.ants[i]? = some w ∧ w.Closed c.distances
  stuck : ∃ w, c'.ants[k]? = some w ∧ w.Open c.distances ∧ w.tour.getLast? = some here ∧
    there ∈ w.unvisited
  placed : ∃ starts g,
    (Draw.times c.ants.length (Draw.below c.distances.cities)).run c.source = .ok (starts, g) ∧
    ∀ i, k < i → c'.ants[i]? = (starts.map (Walk.placed c.distances.cities))[i]?

/-- A generation that began as `c` was given up as `c'`. -/
structure GivenUp (c : AntSystem γ α) (e : Error α) (c' : AntSystem γ α) : Prop where
  unchanged : c' = { c with
    ants := c'.ants
    source := c'.source
    progress := c.progress.abort e }
  stranded : ∃ k here there, Stranded c e c' k here there

theorem stranded_of_performAll [BoundedIndex γ] (hc : c.Sound) {e : Error α}
    (h : performAll (schedule c.distances.cities c.ants.length) c = .ok (c', some e)) :
    ∃ k here there, Stranded c e c' k here there := by
  have hn : 0 < c.distances.cities := hc.distances.cities_pos
  have htable := timetable hn c.ants.length
  obtain ⟨done, a, hdone, hperformed, hrefused⟩ := exists_refused h
  obtain ⟨k, w, here, there, rfl, hw, hnames, hhere, hthere⟩ := perform_eq_error hrefused
  obtain ⟨hk, own, hown, hacts⟩ := acts_before_move hdone
  have hpre : done <+: schedule c.distances.cities c.ants.length :=
    (List.prefix_append done _).trans hdone
  obtain ⟨_, hhalt, hunder⟩ := (underway_of_beginning hc hpre).of_eq hperformed
  rw [hhalt.complete rfl] at hunder
  have hplace : .place k ∈ done := by
    rw [hacts]
    exact List.mem_append_left _ (List.mem_map_of_mem (List.mem_range.mpr hk))
  have hclose {i : Nat} : .close i ∈ done ↔ i < k := by
    simp only [hacts, List.mem_append, List.mem_map, List.mem_flatMap, List.mem_range, tourActs,
      List.mem_replicate, List.mem_singleton, reduceCtorEq, and_false, exists_false, false_or,
      Act.close.injEq, exists_eq_right', or_iff_left_iff_imp]
    exact fun hmem => absurd (hown _ hmem) nofun
  -- the number of its turns tells whether an ant has closed its tour
  have hhome {i : Nat} (hi : i < c.ants.length) :
      i < k ↔ c.distances.cities < turns Act.ant done i := by
    rw [← hclose, htable.mem_iff hpre (a := .close i) hi]
    simp only [Act.ant, eq_close_iff hn, exists_eq_right]
  refine ⟨k, here, there, hk, hnames, fun i hi => ?_, ⟨w, hw, ?_, hhere, hthere⟩, ?_⟩
  · have him := hi.trans hk
    exact hunder.closed_of_lt him ((hhome him).mp hi)
  · obtain ⟨q, hq, -⟩ := (htable.mem_iff hpre (a := .place k) hk).mp hplace
    have hnot : ¬ c.distances.cities < turns Act.ant done k :=
      fun hlt => Nat.lt_irrefl k ((hhome hk).mpr hlt)
    obtain ⟨w', hw', hopen⟩ := hunder.open_of_le hk (Nat.zero_lt_of_lt hq) (Nat.le_of_not_lt hnot)
    cases hw.symm.trans hw'
    exact hopen
  · rw [hacts, performAll_append, performAll_places_all, bind_assoc] at hperformed
    obtain ⟨⟨starts, g⟩, hdrawn, hrest⟩ := bind_eq_ok.mp hperformed
    refine ⟨starts, g, hdrawn, fun i hi => ?_⟩
    -- no ant after this one has acted since it was placed
    refine performAll_keeps (fun x : AntSystem γ α =>
      x.ants[i]? = (starts.map (Walk.placed c.distances.cities))[i]?) ?_ rfl hrest
    intro a ha x y hx hperform
    have hant : a.ant ≤ k := by
      rcases List.mem_append.mp ha with ha | ha
      · obtain ⟨j, hj, ha⟩ := List.mem_flatMap.mp ha
        rw [ant_of_mem_tourActs ha]
        exact (List.mem_range.mp hj).le
      · rw [hown a ha, Act.ant]
    rw [(perform_eq_ok hperform).2 i (by omega), hx]

theorem givenUp_of_step [BoundedIndex γ] (hc : c.Sound) {e : Error α}
    (h : step c = .ok (c', some e)) : GivenUp c e c' := by
  obtain ⟨⟨c₁, _ | e'⟩, hperformed, h⟩ := bind_eq_ok.mp h
  case none =>
    obtain ⟨c₂, -, h⟩ := bind_eq_ok.mp h
    obtain ⟨c₃, -, h⟩ := bind_eq_ok.mp h
    cases h
  cases h
  have hframe := unchanged_of_performAll hperformed
  obtain ⟨k, here, there, hstranded⟩ := stranded_of_performAll hc hperformed
  refine ⟨?_, k, here, there, { hstranded with }⟩
  have hprogress := congrArg Colony.progress hframe
  dsimp only at hprogress ⊢
  rw [hprogress]
  exact congrArg (fun x : AntSystem γ α => { x with progress := c.progress.abort e }) hframe

structure Generation (c : AntSystem γ α) (r : AntSystem γ α × Option (Error α)) : Prop where
  continues : c.Continues r.1
  recorded : r.1.progress.Recorded
  completed : r.2 = none → r.1.progress.generation = c.progress.generation + 1 ∧
    ∀ ant ∈ r.1.ants, ant.Closed c.distances
  givenUp : ∀ e, r.2 = some e → GivenUp c e r.1

theorem step_generation [BoundedIndex γ] (hc : c.Sound) (hrecorded : c.progress.Recorded) :
    Yields (step c) (Generation c) := by
  obtain ⟨⟨c', e⟩, hstep, hcontinues, -, hclosed⟩ := step_yields hc
  refine ⟨_, hstep, ?_⟩
  cases e with
  | none =>
    obtain ⟨_, ant, -, hprogress⟩ := step_eq_ok hc hstep
    refine ⟨hcontinues, ?_, fun _ => ⟨?_, hclosed rfl⟩, nofun⟩
    · rw [hprogress]
      exact hrecorded.offer_advance ..
    · rw [hprogress]
      rfl
  | some e =>
    have hgivenUp := givenUp_of_step hc hstep
    refine ⟨hcontinues, ?_, nofun, fun _ he => Option.some.inj he ▸ hgivenUp⟩
    rw [hgivenUp.unchanged]
    exact { hrecorded with }

structure Generations (k : Nat) (c : AntSystem γ α) (r : AntSystem γ α × Option (Error α)) :
    Prop where
  continues : c.Continues r.1
  recorded : r.1.progress.Recorded
  completed : r.2 = none → iterate k (fun c => unrefused (step c)) c = .ok r.1 ∧
    r.1.progress.generation = c.progress.generation + k
  givenUp : ∀ e, r.2 = some e → ∃ j < k, ∃ c₁,
    iterate j (fun c => unrefused (step c)) c = .ok c₁ ∧ step c₁ = .ok (r.1, some e) ∧
    GivenUp c₁ e r.1 ∧ r.1.progress.generation = c.progress.generation + j

theorem steps_generations [BoundedIndex γ] (hc : c.Sound) (hrecorded : c.progress.Recorded)
    (k : Nat) : Yields (steps k c) (Generations k c) := by
  induction k generalizing c with
  | zero => exact .ok ⟨hc.continues, hrecorded, fun _ => ⟨rfl, rfl⟩, nofun⟩
  | succ k ih =>
    obtain ⟨⟨c', e⟩, hstep, hgeneration⟩ := step_generation hc hrecorded
    apply Yields.eq_bind hstep
    cases e with
    | some e =>
      refine .pure ⟨hgeneration.continues, hgeneration.recorded, nofun, ?_⟩
      rintro _ ⟨⟩
      have hgivenUp := hgeneration.givenUp e rfl
      refine ⟨0, Nat.succ_pos k, c, rfl, hstep, hgivenUp, ?_⟩
      rw [hgivenUp.unchanged]
      rfl
    | none =>
      have hnext : unrefused (step c) = .ok c' := unrefused_eq_ok.mpr hstep
      obtain ⟨hcount, -⟩ := hgeneration.completed rfl
      dsimp only at hcount
      refine (ih hgeneration.continues.sound hgeneration.recorded).mono fun r hr => ?_
      have htrans := hgeneration.continues.trans hr.continues
      refine ⟨htrans, hr.recorded, fun hnone => ?_, fun e he => ?_⟩
      · obtain ⟨hiterate, hgenerations⟩ := hr.completed hnone
        rw [iterate_succ, hnext, hgenerations, hcount]
        exact ⟨hiterate, by omega⟩
      · obtain ⟨j, hj, c₁, hiterate, hlast, hgivenUp, hgenerations⟩ := hr.givenUp e he
        refine ⟨j + 1, Nat.succ_lt_succ hj, c₁, ?_, hlast, hgivenUp, ?_⟩
        · rw [iterate_succ, hnext]
          exact hiterate
        · rw [hgenerations, hcount]
          omega

theorem run_generations [BoundedIndex γ] (hc : c.Sound) (hrecorded : c.progress.Recorded) :
    Yields (run c) fun r => ∃ c₁, Generations c.config.maxGenerations c (c₁, r.2) ∧
      r.1 = if r.2.isSome then c₁ else { c₁ with progress := c₁.progress.finish } := by
  obtain ⟨⟨c₁, e⟩, hsteps, h⟩ := steps_generations hc hrecorded c.config.maxGenerations
  apply Yields.eq_bind hsteps
  cases e with
  | some e => exact .pure ⟨c₁, h, rfl⟩
  | none => exact .pure ⟨c₁, h, rfl⟩

theorem after_recorded [BoundedIndex γ] (hc : c.Sound) (hrecorded : c.progress.Recorded)
    (calls : List Call) (k : Nat) :
    Yields (after calls k c) fun c' => c.Continues c' ∧ c'.progress.Recorded := by
  apply after_keeps _ _ calls k ⟨hc.continues, hrecorded⟩
  · rintro c' ⟨hcontinues, hrecorded⟩
    refine (step_generation hcontinues.sound hrecorded).mono fun r h => ?_
    exact ⟨hcontinues.trans h.continues, h.recorded⟩
  · rintro c' ⟨hcontinues, hrecorded⟩
    exact ⟨⟨{ hcontinues.sound with }, { hcontinues.task with }⟩, { hrecorded with }⟩

/-- Whatever has been given up before, the next generation or run is an ordinary one. -/
theorem atomic_throughout [BoundedIndex γ] {d : Distances α} {config : Config α} {g : γ}
    {c₀ : AntSystem γ α} (hstart : start d config g = .ok c₀) (calls : List Call) (k : Nat) :
    ∃ c, after calls k c₀ = .ok c ∧ c.distances = d ∧ c.Feasible ∧ c.progress.Recorded ∧
      (∃ r, step c = .ok r ∧ Generation c r) ∧
      (∃ r c₁, run c = .ok r ∧ Generations c.config.maxGenerations c (c₁, r.2) ∧
        r.1 = if r.2.isSome then c₁ else { c₁ with progress := c₁.progress.finish }) ∧
      ∀ ants, ants.length = c.ants.length → step { c with ants := ants } = step c := by
  obtain ⟨hc₀, hd, -⟩ := start_sound hstart
  have hrecorded₀ : c₀.progress.Recorded := by
    obtain ⟨_, _, -, hseeded⟩ := start_seed hstart
    obtain ⟨event, hprogress⟩ := hseeded.progress
    rw [hprogress]
    exact Progress.recorded_start _ event
  obtain ⟨c, hafter, hcontinues, hrecorded⟩ := after_recorded hc₀ hrecorded₀ calls k
  obtain ⟨r, hstep, hgeneration⟩ := step_generation hcontinues.sound hrecorded
  obtain ⟨r', hrun, c₁, hgenerations, hr'⟩ := run_generations hcontinues.sound hrecorded
  exact ⟨c, hafter, hcontinues.task.distances.trans hd, hcontinues.sound.toFeasible, hrecorded,
    ⟨r, hstep, hgeneration⟩, ⟨r', c₁, hrun, hgenerations, hr'⟩, fun ants => step_with_ants⟩

theorem atomic_throughout_farCities :
    letI := unitPower
    ∃ c₀ c c' : AntSystem Generator Float, ∃ e,
      start farCities ⟨2, 3, 1, 1, 0.5, 7⟩ (Generator.ofSeed 7) = .ok c₀ ∧
      after [.step, .run] 0 c₀ = .ok c ∧ step c = .ok (c', some e) ∧ GivenUp c e c' ∧
      c'.progress.Recorded := by
  let := unitPower
  have hfails : (start farCities ⟨2, 3, 1, 1, 0.5, 7⟩ (Generator.ofSeed 7) :
      Except (Rejection Float) (AntSystem Generator Float)).toOption.any (fun c₀ =>
        (after [.step, .run] 0 c₀).toOption.any fun c =>
          (step c).toOption.any fun r => r.2.isSome) = true := by decide +kernel
  obtain ⟨c₀, hstart⟩ : ∃ c₀ : AntSystem Generator Float,
      start farCities ⟨2, 3, 1, 1, 0.5, 7⟩ (Generator.ofSeed 7) = .ok c₀ :=
    exists_eq_ok (by decide +kernel)
  obtain ⟨c, hafter, -, -, -, ⟨⟨c', e⟩, hstep, hgeneration⟩, -⟩ :=
    atomic_throughout hstart [.step, .run] 0
  simp only [hstart, hafter, hstep, Except.toOption, Option.any_some] at hfails
  obtain ⟨e, rfl⟩ := Option.isSome_iff_exists.mp hfails
  exact ⟨c₀, c, c', e, hstart, hafter, hstep, hgeneration.givenUp e rfl, hgeneration.recorded⟩

end PopulationSearch.AntSystem
