import PopulationSearch.Proofs.Optimum
import PopulationSearch.Proofs.VectorFeasibility

/-! The vector searches report the fittest of all vectors they have evaluated, the rejected ones
included. -/

namespace PopulationSearch

variable {γ α : Type} [Scalar α] [Source γ α]

/-- Objectives that judge by their direction and have numbers for values inside their bounds. -/
structure Objective.Ordinary (o : Objective α) : Prop where
  isFitter : o.isFitter = o.direction.isFitter
  isNaN_value : ∀ x v, o.bounds.contains x = true → o.evaluate x = .ok v → Scalar.isNaN v = false

theorem Objective.Ordinary.ranks [OrderedScalar α] {o : Objective α} (h : o.Ordinary) :
    Ranks o.isFitter := by
  rw [h.isFitter]
  exact o.direction.ranks

structure Standing.Leading (o : Objective α) (seen : List (Best (List α) α))
    (s : Standing (List α) α) : Prop where
  numbers : ∀ c ∈ seen, Scalar.isNaN c.quality = false
  leads : s.Leads o.isFitter seen

theorem Standing.Leading.contest [OrderedScalar α] {o : Objective α} (ho : o.Ordinary)
    {seen : List (Best (List α) α)} {s : Standing (List α) α} (h : s.Leading o seen) {i : Nat}
    {c : Best (List α) α} (hx : o.bounds.contains c.solution = true)
    (hc : o.evaluate c.solution = .ok c.quality) (hi : i < s.slots.length) :
    (s.contest o.isFitter i c).Leading o (seen ++ [c]) where
  numbers := by
    rw [List.forall_mem_append, List.forall_mem_singleton]
    exact ⟨h.numbers, ho.isNaN_value _ _ hx hc⟩
  leads := h.leads.contest ho.ranks h.numbers (ho.isNaN_value _ _ hx hc) hi

namespace DifferentialSearch

variable {s s' : DifferentialSearch γ α} {o : Objective α}

def contenders : List Nat → DifferentialSearch γ α → Except Fault (List (Best (List α) α))
  | [], _ => .ok []
  | i :: slots, s => do
    let c ← contender s i
    let s ← visit s i
    let cs ← contenders slots s
    return c :: cs

def Evaluates (s : DifferentialSearch γ α) (batch : List (Best (List α) α))
    (s' : DifferentialSearch γ α) : Prop :=
  step s = .ok s' ∧ contenders (List.range s.population.length) s = .ok batch

theorem exists_contenders (slots : List Nat) (s : DifferentialSearch γ α) :
    Ensures (slots.foldlM visit s) fun _ => ∃ batch, contenders slots s = .ok batch := by
  intro s' hvisits
  induction slots generalizing s with
  | nil => exact ⟨[], rfl⟩
  | cons i slots ih =>
    rw [List.foldlM_cons] at hvisits
    obtain ⟨s₁, hfirst, hrest⟩ := bind_eq_ok.mp hvisits
    obtain ⟨batch, hbatch⟩ := ih s₁ hrest
    obtain ⟨c, hc⟩ := exists_contender i s s₁ hfirst
    refine ⟨c :: batch, ?_⟩
    rw [contenders, hc, ok_bind, hfirst, ok_bind, hbatch]
    rfl

theorem exists_evaluates (s : DifferentialSearch γ α) :
    Ensures (step s) fun s' => ∃ batch, Evaluates s batch s' := by
  intro s' hstep
  obtain ⟨s₁, hvisits, -⟩ := bind_eq_ok.mp hstep
  obtain ⟨batch, hbatch⟩ := exists_contenders _ s s₁ hvisits
  exact ⟨batch, hstep, hbatch⟩

variable {config : Differential.Config α} {g : γ}

theorem start_leader (h : start o config g = .ok s) :
    ∃ slot event, leader? o.isFitter s.values = some (slot, s.progress.best.quality) ∧
      s.progress = Progress.start s.progress.best event := by
  obtain ⟨_, -, h⟩ := bind_eq_ok.mp h
  obtain ⟨_, -, h⟩ := bind_eq_ok.mp h
  obtain ⟨⟨population, g'⟩, -, h⟩ := bind_eq_ok.mp h
  obtain ⟨values, -, h⟩ := bind_eq_ok.mp h
  obtain ⟨⟨slot, value⟩, hleader, h⟩ := bind_eq_ok.mp h
  obtain ⟨position, -, h⟩ := bind_eq_ok.mp h
  rw [liftM_fault_eq_ok, demand_eq_ok] at hleader
  cases h
  exact ⟨slot, _, hleader, rfl⟩

variable [FiniteArithmetic α] [UniformDraws γ] [BoundedIndex γ] [DistinctSamples γ] {size : Nat}

theorem Inside.contender (h : Inside o size s) (hb : o.bounds.Sound) (hfour : 4 ≤ size) {i : Nat}
    (hi : i < size) : Ensures (contender s i) fun c => o.bounds.contains c.solution = true := by
  obtain rfl := h.objective
  obtain rfl := h.length_population
  intro c hc
  obtain ⟨⟨x, g⟩, htrial, hc⟩ := bind_eq_ok.mp hc
  obtain ⟨value, -, hc⟩ := bind_eq_ok.mp hc
  cases hc
  exact (trial_yields hb hfour h.population hi s.source).of_eq htrial

/-- Between visits the best leads all candidates, and those were inside the bounds. -/
structure Ahead (o : Objective α) (size : Nat) (seen : List (Best (List α) α))
    (s : DifferentialSearch γ α) : Prop where
  inside : Inside o size s
  leading : s.standing.Leading o seen

theorem Ahead.visit (ho : o.Ordinary) (hb : o.bounds.Sound) (hfour : 4 ≤ size)
    {seen : List (Best (List α) α)} (h : s.Ahead o size seen) {i : Nat} (hi : i < size) :
    Ensures (visit s i) fun s' => ∃ c, contender s i = .ok c ∧ s'.Ahead o size (seen ++ [c]) ∧
      s'.progress = { s.progress with best := s'.progress.best } := by
  intro s' hs'
  have hlen := h.inside.length_population.trans h.inside.length_values.symm
  obtain ⟨c, hc, hvisit⟩ := visit_ensures hlen i s' hs'
  have hevaluated := hvisit.evaluated
  refine ⟨c, hc, ⟨(h.inside.visit hb hfour hi).of_eq hs', ?_⟩, hvisit.progress⟩
  rw [hvisit.standing]
  rw [h.inside.objective] at hevaluated ⊢
  exact h.leading.contest ho (h.inside.contender hb hfour hi c hc) hevaluated hvisit.slot

theorem Ahead.visits (ho : o.Ordinary) (hb : o.bounds.Sound) (hfour : 4 ≤ size) {slots : List Nat}
    (hslots : ∀ i ∈ slots, i < size) {seen batch : List (Best (List α) α)}
    (h : s.Ahead o size seen) (hvisits : slots.foldlM DifferentialSearch.visit s = .ok s')
    (hbatch : contenders slots s = .ok batch) : s'.Ahead o size (seen ++ batch) ∧
      s'.progress = { s.progress with best := s'.progress.best } := by
  induction slots generalizing s seen batch with
  | nil =>
    cases hvisits
    cases hbatch
    exact ⟨by rwa [List.append_nil], rfl⟩
  | cons i slots ih =>
    obtain ⟨hi, hslots⟩ := List.forall_mem_cons.mp hslots
    rw [List.foldlM_cons] at hvisits
    obtain ⟨s₁, hfirst, hrest⟩ := bind_eq_ok.mp hvisits
    obtain ⟨c, hc, hnext, hvisit⟩ := h.visit ho hb hfour hi s₁ hfirst
    rw [contenders, hc, ok_bind, hfirst, ok_bind] at hbatch
    obtain ⟨batch, htail, hbatch⟩ := bind_eq_ok.mp hbatch
    cases hbatch
    obtain ⟨hahead, hprogress⟩ := ih hslots hnext hrest htail
    refine ⟨?_, ?_⟩
    · rwa [List.append_cons]
    · rw [hprogress, hvisit]

theorem Ahead.evaluates (ho : o.Ordinary) (hb : o.bounds.Sound) (hfour : 4 ≤ size)
    {batches : List (List (Best (List α) α))} {batch : List (Best (List α) α)}
    (h : s.Ahead o size batches.flatten) (hoptimal : s.progress.Optimal o.isFitter batches)
    (hevaluates : Evaluates s batch s') :
    s'.Ahead o size (batches ++ [batch]).flatten ∧
      s'.progress.Optimal o.isFitter (batches ++ [batch]) := by
  obtain ⟨hstep, hbatch⟩ := hevaluates
  obtain ⟨s₁, hvisits, hs'⟩ := bind_eq_ok.mp hstep
  have hslots : ∀ i ∈ List.range s.population.length, i < size := fun i hi =>
    h.inside.length_population ▸ List.mem_range.mp hi
  obtain ⟨hahead, hprogress⟩ := h.visits ho hb hfour hslots hvisits hbatch
  cases hs'
  rw [List.flatten_concat]
  refine ⟨⟨{ hahead.inside with }, hahead.leading⟩, ?_⟩
  dsimp only
  rw [hprogress]
  exact hoptimal.advance hahead.leading.leads.best

theorem optimal_of_course (ho : o.Ordinary) (hb : o.bounds.Sound) (hfour : 4 ≤ size)
    {s₀ : DifferentialSearch γ α} {first : List (Best (List α) α)}
    {batches : List (List (Best (List α) α))} (hfirst : s₀.Ahead o size first)
    (h₀ : s₀.progress.Optimal o.isFitter [first]) (h : Course Evaluates finished s₀ batches s) :
    s.progress.Optimal o.isFitter (first :: batches) := by
  refine (h.keeps (fun batches s => s.Ahead o size batches.flatten ∧
    s.progress.Optimal o.isFitter batches) ⟨?_, h₀⟩ ?_ ?_).2
  · rwa [List.flatten_singleton]
  · rintro batches s batch s' ⟨hahead, hoptimal⟩ hevaluates
    exact hahead.evaluates ho hb hfour hoptimal hevaluates
  · rintro batches s ⟨hahead, hoptimal⟩
    exact ⟨⟨{ hahead.inside with }, hahead.leading⟩, hoptimal.finish⟩

omit [BoundedIndex γ] [DistinctSamples γ] in
theorem start_ahead (ho : o.Ordinary) (h : start o config g = .ok s) :
    o.bounds.Sound ∧ 4 ≤ config.populationSize ∧
      s.Ahead o config.populationSize s.standing.slots ∧
      s.progress.Optimal o.isFitter [s.standing.slots] := by
  have hsettled := start_ensures g s h
  obtain ⟨-, -, hkept⟩ := kept_iff_standing.mp hsettled.kept
  obtain ⟨hb, hfour, hinside⟩ := (start_meets o config g).of_eq h
  obtain ⟨slot, event, hleader, hprogress⟩ := start_leader h
  rw [hsettled.objective] at hkept
  have hleads : s.progress.best.Leads o.isFitter s.standing.slots := by
    refine ⟨hkept.best_mem, fun b hb => ?_⟩
    obtain ⟨i, hi⟩ := List.mem_iff_getElem?.mp hb
    exact unbeaten_of_leader? _ ho.ranks.irrefl ho.ranks.trans hleader _
      (List.mem_of_getElem? (getElem?_standing.mp hi).2)
  have hnumbers : ∀ b ∈ s.standing.slots, Scalar.isNaN b.quality = false := by
    intro b hmem
    obtain ⟨i, hi⟩ := List.mem_iff_getElem?.mp hmem
    have hx := hinside.population _ (List.mem_of_getElem? (getElem?_standing.mp hi).1)
    exact ho.isNaN_value _ _ hx (hkept.evaluated b hmem)
  refine ⟨hb, hfour, ⟨hinside, hnumbers, fun b hb => hb, hleads⟩, ?_⟩
  rw [hprogress]
  exact Progress.optimal_start event hleads

theorem exists_optimal (ho : o.Ordinary) {s₀ : DifferentialSearch γ α}
    (hstart : start o config g = .ok s₀) (calls : List Call) (k : Nat)
    (hafter : after calls k s₀ = .ok s) :
    ∃ batches, Course Evaluates finished s₀ batches s ∧
      s.progress.Optimal o.isFitter (s₀.standing.slots :: batches) := by
  obtain ⟨hb, hfour, hahead, hoptimal⟩ := start_ahead ho hstart
  obtain ⟨batches, hcourse⟩ :=
    exists_course Evaluates (fun _ => rfl) exists_evaluates calls k s₀ s hafter
  exact ⟨batches, hcourse, optimal_of_course ho hb hfour hahead hoptimal hcourse⟩

end DifferentialSearch

namespace SwarmSearch

open Swarm

variable {s s' : SwarmSearch γ α} {o : Objective α}

def candidates (s : SwarmSearch γ α) : List (Best (List α) α) :=
  s.particles.map fun p => ⟨p.position, p.value⟩

def Evaluates (s : SwarmSearch γ α) (batch : List (Best (List α) α)) (s' : SwarmSearch γ α) :
    Prop :=
  step s = .ok s' ∧ batch = s'.candidates

omit [Scalar α] [Source γ α] in
theorem Visited.take_candidates {i : Nat} {c : Best (List α) α} (h : Visited i c s s') :
    s'.candidates.take (i + 1) = s.candidates.take i ++ [c] := by
  obtain ⟨p, hposition, hvalue, hparticles⟩ := h.flown
  have hi : i < s.candidates.length := by
    have hslot := h.slot
    rw [SwarmSearch.standing, List.length_map] at hslot
    rw [candidates, List.length_map]
    exact hslot
  have hset : s'.candidates = s.candidates.set i c := by
    rw [candidates, hparticles, List.map_set, hposition, hvalue]
    rfl
  rw [hset, take_succ_set hi]

variable [FiniteArithmetic α] {config : Config α}

structure Ahead (o : Objective α) (config : Config α) (seen : List (Best (List α) α))
    (s : SwarmSearch γ α) : Prop where
  inside : Inside o config s
  leading : s.standing.Leading o seen

theorem Ahead.visit (ho : o.Ordinary) (hb : o.bounds.Sound) (hfit : Fit config)
    {seen : List (Best (List α) α)} (h : s.Ahead o config seen) {i : Nat}
    (hi : i < config.swarmSize) :
    Ensures (visit s i) fun s' => ∃ c, Visited i c s s' ∧ s'.Ahead o config (seen ++ [c]) := by
  intro s' hs'
  obtain ⟨c, hvisit⟩ := visit_ensures i s' hs'
  have hinside := (h.inside.visit hb hfit hi).of_eq hs'
  obtain ⟨p, hposition, -, hparticles⟩ := hvisit.flown
  have hmem : p ∈ s'.particles := by
    rw [hparticles]
    exact List.mem_set (h.inside.length_particles ▸ hi) p
  have hx : o.bounds.contains c.solution = true := hposition ▸ (hinside.particles p hmem).position
  have hevaluated := hvisit.evaluated
  refine ⟨c, hvisit, hinside, ?_⟩
  rw [hvisit.standing]
  rw [h.inside.objective] at hevaluated ⊢
  exact h.leading.contest ho hx hevaluated hvisit.slot

theorem Ahead.visits (ho : o.Ordinary) (hb : o.bounds.Sound) (hfit : Fit config)
    {seen : List (Best (List α) α)} (h : s.Ahead o config seen) {k : Nat}
    (hk : k ≤ config.swarmSize) :
    Ensures ((List.range k).foldlM SwarmSearch.visit s) fun s' =>
      s'.Ahead o config (seen ++ s'.candidates.take k) ∧ s.SameTask s' ∧
        s'.progress = { s.progress with best := s'.progress.best } := by
  refine Ensures.foldlM_range (fun k s' => s'.Ahead o config (seen ++ s'.candidates.take k) ∧
    s.SameTask s' ∧ s'.progress = { s.progress with best := s'.progress.best })
    ⟨?_, ⟨rfl, rfl, rfl⟩, rfl⟩ k ?_
  · rwa [List.take_zero, List.append_nil]
  · rintro i hi s' ⟨hahead, htask, hprogress⟩ s'' hs''
    obtain ⟨c, hvisit, hnext⟩ := hahead.visit ho hb hfit (hi.trans_le hk) s'' hs''
    rw [hvisit.take_candidates, ← List.append_assoc]
    refine ⟨hnext, htask.trans hvisit.task, ?_⟩
    rw [hvisit.progress, hprogress]

theorem Ahead.evaluates (ho : o.Ordinary) (hb : o.bounds.Sound) (hfit : Fit config)
    {batches : List (List (Best (List α) α))} {batch : List (Best (List α) α)}
    (h : s.Ahead o config batches.flatten) (hoptimal : s.progress.Optimal o.isFitter batches)
    (hevaluates : Evaluates s batch s') :
    s'.Ahead o config (batches ++ [batch]).flatten ∧
      s'.progress.Optimal o.isFitter (batches ++ [batch]) := by
  obtain ⟨hstep, rfl⟩ := hevaluates
  obtain ⟨s₁, hvisits, hs'⟩ := bind_eq_ok.mp hstep
  obtain ⟨hahead, htask, hprogress⟩ := h.visits ho hb hfit h.inside.length_particles.le s₁ hvisits
  have hall : s₁.candidates.take s.particles.length = s₁.candidates := by
    apply List.take_of_length_le
    rw [candidates, List.length_map, htask.length_particles]
  rw [hall] at hahead
  cases hs'
  rw [List.flatten_concat]
  refine ⟨⟨{ hahead.inside with }, hahead.leading⟩, ?_⟩
  dsimp only
  rw [hprogress]
  exact hoptimal.advance hahead.leading.leads.best

theorem optimal_of_course (ho : o.Ordinary) (hb : o.bounds.Sound) (hfit : Fit config)
    {s₀ : SwarmSearch γ α} {first : List (Best (List α) α)}
    {batches : List (List (Best (List α) α))} (hfirst : s₀.Ahead o config first)
    (h₀ : s₀.progress.Optimal o.isFitter [first]) (h : Course Evaluates finished s₀ batches s) :
    s.progress.Optimal o.isFitter (first :: batches) := by
  refine (h.keeps (fun batches s => s.Ahead o config batches.flatten ∧
    s.progress.Optimal o.isFitter batches) ⟨?_, h₀⟩ ?_ ?_).2
  · rwa [List.flatten_singleton]
  · rintro batches s batch s' ⟨hahead, hoptimal⟩ hevaluates
    exact hahead.evaluates ho hb hfit hoptimal hevaluates
  · rintro batches s ⟨hahead, hoptimal⟩
    exact ⟨⟨{ hahead.inside with }, hahead.leading⟩, hoptimal.finish⟩

variable [UniformDraws γ] {g : γ}

theorem start_ahead (ho : o.Ordinary) (h : start o config g = .ok s) :
    o.bounds.Sound ∧ Fit config ∧ s.Ahead o config s.candidates ∧
      s.progress.Optimal o.isFitter [s.candidates] := by
  obtain ⟨hb, hfit, hinside⟩ := (start_meets o config g).of_eq h
  obtain ⟨_, -, h⟩ := bind_eq_ok.mp h
  obtain ⟨_, -, h⟩ := bind_eq_ok.mp h
  obtain ⟨⟨particles, g'⟩, hparticles, h⟩ := bind_eq_ok.mp h
  obtain ⟨⟨i, p⟩, hleader, h⟩ := bind_eq_ok.mp h
  rw [liftM_fault_eq_ok] at hparticles hleader
  rw [demand_eq_ok] at hleader
  obtain ⟨-, hscattered⟩ := (scatter_ensures _).times _ g _ hparticles
  cases h
  have hslots : particles.map Particle.record = particles.map fun p => ⟨p.position, p.value⟩ :=
    List.map_congr_left fun q hq => (hscattered q hq).2
  have hleads : p.record.Leads o.isFitter (particles.map Particle.record) :=
    Best.leads_of_leader? ho.ranks hleader
  have hnumbers : ∀ b ∈ particles.map Particle.record, Scalar.isNaN b.quality = false := by
    rw [List.forall_mem_map]
    exact fun q hq =>
      ho.isNaN_value _ _ (hinside.particles q hq).bestPosition (hscattered q hq).1.best
  rw [hslots] at hleads hnumbers
  refine ⟨hb, hfit, ⟨hinside, hnumbers, fun b hb => ?_, hleads⟩, Progress.optimal_start _ hleads⟩
  rw [candidates, ← hslots]
  exact hb

theorem exists_optimal (ho : o.Ordinary) {s₀ : SwarmSearch γ α}
    (hstart : start o config g = .ok s₀) (calls : List Call) (k : Nat)
    (hafter : after calls k s₀ = .ok s) :
    ∃ batches, Course Evaluates finished s₀ batches s ∧
      s.progress.Optimal o.isFitter (s₀.candidates :: batches) := by
  obtain ⟨hb, hfit, hahead, hoptimal⟩ := start_ahead ho hstart
  obtain ⟨batches, hcourse⟩ := exists_course Evaluates (fun _ => rfl)
    (fun s s' hstep => ⟨_, hstep, rfl⟩) calls k s₀ s hafter
  exact ⟨batches, hcourse, optimal_of_course ho hb hfit hahead hoptimal hcourse⟩

end SwarmSearch
end PopulationSearch
