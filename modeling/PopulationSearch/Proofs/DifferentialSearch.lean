import PopulationSearch.Differential.Search
import PopulationSearch.Proofs.Calls
import PopulationSearch.Proofs.Rejections
import PopulationSearch.Proofs.Standing
import PopulationSearch.Proofs.Wheel

/-! Differential evolution as a series of contests, one for each slot and generation. -/

namespace PopulationSearch.DifferentialSearch

variable {γ α : Type} [Scalar α] [Source γ α] {s s' : DifferentialSearch γ α}

def standing (s : DifferentialSearch γ α) : Standing (List α) α where
  slots := (s.population.zip s.values).map fun entry => ⟨entry.1, entry.2⟩
  best := s.progress.best

theorem zip_set {β δ : Type} (l : List β) (m : List δ) (i : Nat) (x : β) (y : δ) :
    (l.set i x).zip (m.set i y) = (l.zip m).set i (x, y) := by
  induction l generalizing m i with
  | nil => rfl
  | cons z zs ih => cases m <;> cases i <;> simp [ih]

omit [Scalar α] [Source γ α] in
theorem getElem?_standing {i : Nat} {b : Best (List α) α} :
    s.standing.slots[i]? = some b ↔
      s.population[i]? = some b.solution ∧ s.values[i]? = some b.quality := by
  obtain ⟨x, v⟩ := b
  simp [standing, List.getElem?_zip_eq_some]

structure SameTask (s s' : DifferentialSearch γ α) : Prop where
  config : s'.config = s.config
  objective : s'.objective = s.objective
  length_population : s'.population.length = s.population.length
  length_values : s'.values.length = s.values.length

omit [Scalar α] [Source γ α] in
theorem SameTask.trans {s'' : DifferentialSearch γ α} (h : s.SameTask s') (h' : s'.SameTask s'') :
    s.SameTask s'' where
  config := h'.config.trans h.config
  objective := h'.objective.trans h.objective
  length_population := h'.length_population.trans h.length_population
  length_values := h'.length_values.trans h.length_values

omit [Scalar α] [Source γ α] in
theorem compete_eq_ok (hlen : s.population.length = s.values.length) {i : Nat} {x : List α}
    {value : α} (h : compete i x value s = .ok s') :
    i < s.standing.slots.length ∧
      s'.standing = s.standing.contest s.objective.isFitter i ⟨x, value⟩ ∧ s.SameTask s' ∧
      s'.progress = { s.progress with best := s'.progress.best } := by
  obtain ⟨old, hold, h⟩ := bind_eq_ok.mp h
  rw [demand_eq_ok] at hold
  have hi : i < s.population.length := by
    rw [hlen]
    exact (List.getElem?_eq_some_iff.mp hold).1
  have hslot : s.standing.slots[i]? = some ⟨s.population[i], old⟩ :=
    getElem?_standing.mpr ⟨List.getElem?_eq_getElem hi, hold⟩
  refine ⟨(List.getElem?_eq_some_iff.mp hslot).1, ?_⟩
  split at h
  case isTrue hfitter =>
    cases h
    refine ⟨?_, ⟨rfl, rfl, List.length_set, List.length_set⟩, rfl⟩
    rw [Standing.contest_of_fitter hslot hfitter, standing, zip_set, List.map_set]
    rfl
  case isFalse hfitter =>
    cases h
    rw [Bool.not_eq_true] at hfitter
    exact ⟨(Standing.contest_of_not_fitter hslot hfitter).symm, ⟨rfl, rfl, rfl, rfl⟩, rfl⟩

def contender (s : DifferentialSearch γ α) (i : Nat) : Except Fault (Best (List α) α) := do
  let (x, _) ← (trial s i).run s.source
  let value ← s.objective.evaluate x
  return ⟨x, value⟩

theorem exists_contender (i : Nat) (s : DifferentialSearch γ α) :
    Ensures (visit s i) fun _ => ∃ c, contender s i = .ok c := by
  intro s' h
  obtain ⟨⟨x, g⟩, htrial, h⟩ := bind_eq_ok.mp h
  obtain ⟨value, hvalue, -⟩ := bind_eq_ok.mp h
  exact ⟨⟨x, value⟩, bind_eq_ok.mpr ⟨(x, g), htrial, bind_eq_ok.mpr ⟨value, hvalue, rfl⟩⟩⟩

structure Visited (i : Nat) (c : Best (List α) α) (s s' : DifferentialSearch γ α) : Prop where
  evaluated : s.objective.evaluate c.solution = .ok c.quality
  slot : i < s.standing.slots.length
  standing : s'.standing = s.standing.contest s.objective.isFitter i c
  task : s.SameTask s'
  progress : s'.progress = { s.progress with best := s'.progress.best }

theorem visit_ensures (hlen : s.population.length = s.values.length) (i : Nat) :
    Ensures (visit s i) fun s' => ∃ c, contender s i = .ok c ∧ Visited i c s s' := by
  intro s' h
  obtain ⟨⟨x, g⟩, htrial, h⟩ := bind_eq_ok.mp h
  obtain ⟨value, hvalue, h⟩ := bind_eq_ok.mp h
  obtain ⟨hslot, hstanding, htask, hprogress⟩ := compete_eq_ok (s := { s with source := g }) hlen h
  refine ⟨⟨x, value⟩, ?_, hvalue, hslot, hstanding, { htask with }, hprogress⟩
  exact bind_eq_ok.mpr ⟨(x, g), htrial, bind_eq_ok.mpr ⟨value, hvalue, rfl⟩⟩

structure Kept (s : DifferentialSearch γ α) : Prop where
  length_population : s.population.length = s.config.populationSize
  length_values : s.values.length = s.config.populationSize
  evaluated : ∀ (i : Nat) (x : List α) (v : α), s.population[i]? = some x → s.values[i]? = some v →
    s.objective.evaluate x = .ok v
  best : ∃ i : Nat, s.population[i]? = some s.progress.best.solution ∧
    s.values[i]? = some s.progress.best.quality

omit [Scalar α] [Source γ α] in
theorem kept_iff_standing : s.Kept ↔ s.population.length = s.config.populationSize ∧
    s.values.length = s.config.populationSize ∧ s.standing.Kept s.objective := by
  constructor
  · intro h
    refine ⟨h.length_population, h.length_values, ⟨fun b hb => ?_, ?_⟩⟩
    · obtain ⟨i, hi⟩ := List.mem_iff_getElem?.mp hb
      obtain ⟨hx, hv⟩ := getElem?_standing.mp hi
      exact h.evaluated i _ _ hx hv
    · obtain ⟨i, hi⟩ := h.best
      exact List.mem_of_getElem? (getElem?_standing.mpr hi)
  · rintro ⟨hpopulation, hvalues, h⟩
    refine ⟨hpopulation, hvalues, fun i x v hx hv => ?_, ?_⟩
    · exact h.evaluated ⟨x, v⟩ (List.mem_of_getElem? (getElem?_standing.mpr ⟨hx, hv⟩))
    · obtain ⟨i, hi⟩ := List.mem_iff_getElem?.mp h.best_mem
      exact ⟨i, getElem?_standing.mp hi⟩

structure Underway (k : Nat) (s s' : DifferentialSearch γ α) : Prop where
  task : s.SameTask s'
  kept : s'.Kept
  contested : s.standing.Contested s.objective k s'.standing
  progress : s'.progress = { s.progress with best := s'.progress.best }

theorem Underway.visit {k : Nat} (h : Underway k s s') :
    Ensures (visit s' k) (Underway (k + 1) s) := by
  obtain ⟨hpopulation, hvalues, hkept⟩ := kept_iff_standing.mp h.kept
  refine (visit_ensures (hpopulation.trans hvalues.symm) k).mono ?_
  rintro s'' ⟨c, -, hvisit⟩
  have htask := h.task.trans hvisit.task
  refine ⟨htask, kept_iff_standing.mpr ⟨?_, ?_, ?_⟩, ?_, ?_⟩
  · rw [hvisit.task.length_population, hvisit.task.config, hpopulation]
  · rw [hvisit.task.length_values, hvisit.task.config, hvalues]
  · rw [hvisit.standing, hvisit.task.objective]
    exact hkept.contest hvisit.evaluated
  · rw [hvisit.standing, h.task.objective]
    exact h.contested.contest (h.task.objective ▸ hvisit.evaluated)
  · rw [hvisit.progress, h.progress]

theorem visits_ensures (hs : s.Kept) (k : Nat) :
    Ensures ((List.range k).foldlM visit s) (Underway k s) := by
  have h₀ : Underway 0 s s := ⟨⟨rfl, rfl, rfl, rfl⟩, hs, Standing.contested_refl _ _, rfl⟩
  exact Ensures.foldlM_range (fun k => Underway k s) h₀ k fun i _ s' h => h.visit

/-- What holds between generations, of an objective and a configuration that stay as they are. -/
structure Settled (objective : Objective α) (config : Differential.Config α)
    (s : DifferentialSearch γ α) : Prop where
  objective : s.objective = objective
  config : s.config = config
  kept : s.Kept
  improving : s.progress.Improving s.objective.Replaces

variable {objective : Objective α} {config : Differential.Config α}

theorem start_ensures (g : γ) : Ensures (start objective config g) (Settled objective config) := by
  intro s h
  obtain ⟨_, -, h⟩ := bind_eq_ok.mp h
  obtain ⟨_, -, h⟩ := bind_eq_ok.mp h
  obtain ⟨⟨population, g'⟩, hpopulation, h⟩ := bind_eq_ok.mp h
  obtain ⟨values, hvalues, h⟩ := bind_eq_ok.mp h
  obtain ⟨⟨slot, value⟩, hleader, h⟩ := bind_eq_ok.mp h
  obtain ⟨position, hposition, h⟩ := bind_eq_ok.mp h
  rw [liftM_fault_eq_ok] at hpopulation hleader hposition
  rw [demand_eq_ok] at hleader hposition
  have hlen : population.length = config.populationSize :=
    ((Draw.Ensures.trivial _).times _ g _ hpopulation).1
  have hpairs := forall₂_of_mapM_eq_ok hvalues
  have hlead := getElem?_of_leader? _ hleader
  cases h
  refine ⟨rfl, rfl, ⟨hlen, hpairs.length_eq.symm.trans hlen, ?_, slot, hposition, hlead⟩,
    Progress.improving_start _ _ _⟩
  intro i x v hx hv
  obtain ⟨v', hv', hxv⟩ := exists_getElem?_of_forall₂ hpairs hx
  cases hv.symm.trans hv'
  exact liftM_fault_eq_ok.mp hxv

theorem step_ensures (hs : s.Settled objective config) :
    Ensures (step s) fun s' =>
      s'.Settled objective config ∧ s.standing.FollowedBy objective s'.standing := by
  obtain ⟨rfl, rfl, hkept, himproving⟩ := hs
  refine (visits_ensures hkept _).bind fun s' h => .pure ⟨⟨?_, ?_, ?_, ?_⟩, ?_⟩
  · exact h.task.objective
  · exact h.task.config
  · exact { h.kept with }
  · dsimp only
    rw [h.progress, h.task.objective]
    exact himproving.advance h.contested.best
  · exact h.contested.followed

def finished (s : DifferentialSearch γ α) : DifferentialSearch γ α :=
  { s with progress := s.progress.finish }

def after (calls : List Call) (k : Nat) (s : DifferentialSearch γ α) :
    Except Fault (DifferentialSearch γ α) := do
  let s ← afterCalls step run calls s
  iterate k step s

theorem after_ensures (hs : s.Settled objective config) (calls : List Call) (k : Nat) :
    Ensures (after calls k s) (Settled objective config) := by
  refine afterCalls_ensures (fun _ => rfl) _
    (fun s h => (step_ensures h).mono fun _ => And.left) (fun s h => ?_) calls k hs
  have himproving : s.progress.finish.Improving s.objective.Replaces := { h.improving with }
  exact ⟨h.objective, h.config, { h.kept with }, himproving⟩

end PopulationSearch.DifferentialSearch
