import PopulationSearch.Proofs.AntSystem
import PopulationSearch.Proofs.ColonySystem
import PopulationSearch.Proofs.GeneticSearch
import PopulationSearch.Proofs.Lengths
import PopulationSearch.Proofs.Optimum

/-! The tour searches report the shortest of all tours they have evaluated. -/

namespace PopulationSearch

variable {γ α : Type} [Scalar α]

theorem Genetic.Chromosome.Evaluated.isNaN_tourLength [NonnegativeSums α] {d : Distances α}
    (hd : d.Sound) {c : Genetic.Chromosome α} (h : c.Evaluated d) :
    Scalar.isNaN c.tourLength = false := by
  have hclosed := Tour.isClosed_close hd.cities_pos h.perm
  have hne : c.genes ≠ [] := by
    refine List.ne_nil_of_length_pos ?_
    rw [Tour.length_of_perm h.perm]
    exact hd.cities_pos
  have hlast := List.getLast?_eq_some_getLast hne
  have hfirst := List.head?_eq_some_head hne
  have hlegs : ∀ leg ∈ Tour.legs c.genes ++ [(c.genes.getLast hne, c.genes.head hne)],
      d.Spans leg := by
    rw [← Tour.legs_append c.genes _ hlast]
    rw [Tour.close, hfirst] at hclosed
    exact fun leg => hclosed.spans hd
  rw [List.forall_mem_append, List.forall_mem_singleton] at hlegs
  have hlength := h.length_eq
  rw [Tour.cyclicLength, hfirst, hlast] at hlength
  obtain ⟨there, hthere, hlength⟩ := bind_eq_ok.mp hlength
  obtain ⟨back, hback, hlength⟩ := bind_eq_ok.mp hlength
  obtain ⟨steps, hsteps, hsum⟩ := bind_eq_ok.mp hthere
  cases hsum
  rw [← Except.ok.inj hlength]
  refine NonnegativeSums.isNaN_of_zero_le _ (NonnegativeSums.zero_le_add _ _ ?_ ?_)
  · exact zero_le_foldl_add_of_zero_lt NonnegativeSums.zero_le_neg_zero
      (hd.zero_lt_of_mapM hlegs.1 hsteps)
  · exact NonnegativeSums.zero_le_of_lt _ (hd.zero_lt hlegs.2 hback)

namespace Colony

variable [Source γ α] {κ : Type} {c c' : Colony κ γ α}

def candidates (c : Colony κ γ α) : List (Best (List Nat) α) := c.ants.map Walk.candidate

omit [Source γ α] in
theorem optimal_of_leader [OrderedScalar α] [NonnegativeSums α]
    {batches : List (List (Best (List Nat) α))}
    (h : c.progress.Optimal (fun a b => a < b) batches) (hd : c.distances.Sound)
    (hclosed : ∀ ant ∈ c'.ants, ant.Closed c.distances) {i : Nat} {ant : Walk α}
    (hleader : leader? (fun a b => a.length < b.length) c'.ants = some (i, ant))
    (hprogress : c'.progress =
      (c.progress.offer (fun a b => a < b) ant.tour ant.length).advance) :
    c'.progress.Optimal (fun a b => a < b) (batches ++ [c'.candidates]) := by
  have hant : ant ∈ c'.ants := List.mem_of_getElem? (getElem?_of_leader? _ hleader)
  have hleads : ant.candidate.Leads (fun a b => a < b) c'.candidates :=
    Best.leads_of_leader? ranks_lt hleader
  rw [hprogress]
  exact h.advance (h.best.offer ranks_lt hleads ((hclosed ant hant).isNaN_length hd))

end Colony

namespace ColonySystem

variable [Source γ α] [BoundedIndex γ] {c c' : ColonySystem γ α}

def Evaluates (c : ColonySystem γ α) (batch : List (Best (List Nat) α)) (c' : ColonySystem γ α) :
    Prop :=
  step c = .ok c' ∧ batch = c'.candidates

theorem optimal_of_course [OrderedScalar α] [NonnegativeSums α] {c₀ : ColonySystem γ α}
    {first : List (Best (List Nat) α)} {batches : List (List (Best (List Nat) α))} (hc₀ : c₀.Sound)
    (h₀ : c₀.progress.Optimal (fun a b => a < b) [first])
    (h : Course Evaluates finished c₀ batches c) :
    c.progress.Optimal (fun a b => a < b) (first :: batches) := by
  refine (h.keeps (fun batches c => c.Sound ∧ c.progress.Optimal (fun a b => a < b) batches)
    ⟨hc₀, h₀⟩ ?_ ?_).2
  · rintro batches c _ c' ⟨hc, hoptimal⟩ ⟨hstep, rfl⟩
    obtain ⟨hcontinues, hclosed, -⟩ := (step_yields hc).of_eq hstep
    obtain ⟨i, ant, hleader, hprogress⟩ := step_eq_ok hc hstep
    exact ⟨hcontinues.sound,
      Colony.optimal_of_leader hoptimal hc.distances hclosed hleader hprogress⟩
  · rintro batches c ⟨hc, hoptimal⟩
    exact ⟨{ hc with }, hoptimal.finish⟩

theorem exists_optimal [Power α] [OrderedScalar α] [NonnegativeSums α] {d : Distances α}
    {config : Config α} {g : γ} {c₀ : ColonySystem γ α} (hstart : start d config g = .ok c₀)
    (calls : List Call) (k : Nat) :
    ∃ walk g', (Walk.nearest d).run g = .ok (walk, g') ∧ ∃ c batches, after calls k c₀ = .ok c ∧
      Course Evaluates finished c₀ batches c ∧
      c.progress.Optimal (fun a b => a < b) ([walk.candidate] :: batches) := by
  obtain ⟨hc₀, -⟩ := start_sound hstart
  obtain ⟨walk, g', hwalk, hseeded⟩ := start_seed hstart
  obtain ⟨event, hprogress⟩ := hseeded.progress
  obtain ⟨c, hafter, -⟩ := after_yields hc₀ calls k
  obtain ⟨batches, hcourse⟩ := exists_course Evaluates (fun _ => rfl)
    (fun c c' hstep => ⟨_, hstep, rfl⟩) calls k c₀ c hafter
  refine ⟨walk, g', hwalk, c, batches, hafter, hcourse, optimal_of_course hc₀ ?_ hcourse⟩
  rw [hprogress]
  exact Progress.optimal_start event (Best.leads_singleton ranks_lt _)

end ColonySystem

namespace AntSystem

variable [Power α] [Source γ α] [BoundedIndex γ] {c c' : AntSystem γ α}

def Evaluates (c : AntSystem γ α) (batch : List (Best (List Nat) α)) (c' : AntSystem γ α) : Prop :=
  step c = .ok (c', none) ∧ batch = c'.candidates

theorem optimal_of_course [OrderedScalar α] [NonnegativeSums α] {c₀ : AntSystem γ α}
    {first : List (Best (List Nat) α)} {batches : List (List (Best (List Nat) α))} (hc₀ : c₀.Sound)
    (h₀ : c₀.progress.Optimal (fun a b => a < b) [first])
    (h : Course Evaluates finished c₀ batches c) :
    c.progress.Optimal (fun a b => a < b) (first :: batches) := by
  refine (h.keeps (fun batches c => c.Sound ∧ c.progress.Optimal (fun a b => a < b) batches)
    ⟨hc₀, h₀⟩ ?_ ?_).2
  · rintro batches c _ c' ⟨hc, hoptimal⟩ ⟨hstep, rfl⟩
    obtain ⟨hcontinues, -, hclosed⟩ := (step_yields hc).of_eq hstep
    obtain ⟨i, ant, hleader, hprogress⟩ := step_eq_ok hc hstep
    exact ⟨hcontinues.sound,
      Colony.optimal_of_leader hoptimal hc.distances (hclosed rfl) hleader hprogress⟩
  · rintro batches c ⟨hc, hoptimal⟩
    exact ⟨{ hc with }, hoptimal.finish⟩

theorem exists_optimal [OrderedScalar α] [NonnegativeSums α] {d : Distances α} {config : Config α}
    {g : γ} {c₀ : AntSystem γ α} (hstart : start d config g = .ok c₀) (calls : List Call) (k : Nat)
    (hafter : afterUnrefused calls k c₀ = .ok c) :
    ∃ walk g', (Walk.nearest d).run g = .ok (walk, g') ∧ ∃ batches,
      Course Evaluates finished c₀ batches c ∧
      c.progress.Optimal (fun a b => a < b) ([walk.candidate] :: batches) := by
  obtain ⟨hc₀, -⟩ := start_sound hstart
  obtain ⟨walk, g', hwalk, hseeded⟩ := start_seed hstart
  obtain ⟨event, hprogress⟩ := hseeded.progress
  obtain ⟨batches, hcourse⟩ := exists_course Evaluates unrefused_run
    (fun c c' hstep => ⟨_, unrefused_eq_ok.mp hstep, rfl⟩) calls k c₀ c hafter
  refine ⟨walk, g', hwalk, batches, hcourse, optimal_of_course hc₀ ?_ hcourse⟩
  rw [hprogress]
  exact Progress.optimal_start event (Best.leads_singleton ranks_lt _)

end AntSystem

namespace GeneticSearch

open Genetic

variable [Source γ α] {s s' : GeneticSearch γ α}

def candidates (s : GeneticSearch γ α) : List (Best (List Nat) α) :=
  s.population.map fun c => ⟨Tour.close c.genes, c.tourLength⟩

def Evaluates (s : GeneticSearch γ α) (batch : List (Best (List Nat) α))
    (s' : GeneticSearch γ α) : Prop :=
  step s = .ok s' ∧ batch = s'.candidates

omit [Source γ α] in
theorem leads_of_shortest [OrderedScalar α] {population : List (Chromosome α)} {c : Chromosome α}
    (h : shortest population = .ok c) :
    c ∈ population ∧
      Best.Leads (fun a b => a < b) (population.map fun c => ⟨Tour.close c.genes, c.tourLength⟩)
        ⟨Tour.close c.genes, c.tourLength⟩ := by
  obtain ⟨⟨i, _⟩, hleader, h⟩ := bind_eq_ok.mp h
  rw [demand_eq_ok] at hleader
  cases h
  exact ⟨List.mem_of_getElem? (getElem?_of_leader? _ hleader), Best.leads_of_leader? ranks_lt
    (f := fun c : Chromosome α => ⟨Tour.close c.genes, c.tourLength⟩) hleader⟩

theorem start_leads [OrderedScalar α] {d : Distances α} {config : Config α} {g : γ}
    (h : start d config g = .ok s) :
    ∃ best event, s.progress = Progress.start best event ∧
      best.Leads (fun a b => a < b) s.candidates := by
  obtain ⟨_, -, h⟩ := bind_eq_ok.mp h
  obtain ⟨_, -, h⟩ := bind_eq_ok.mp h
  obtain ⟨⟨genes, g'⟩, -, h⟩ := bind_eq_ok.mp h
  obtain ⟨population, -, h⟩ := bind_eq_ok.mp h
  obtain ⟨c, hc, h⟩ := bind_eq_ok.mp h
  rw [liftM_fault_eq_ok] at hc
  cases h
  exact ⟨_, _, rfl, (leads_of_shortest hc).2⟩

theorem step_eq_ok (h : step s = .ok s') :
    ∃ c, shortest s'.population = .ok c ∧ s'.progress =
      (s.progress.offer (fun a b => a < b) (Tour.close c.genes) c.tourLength).advance := by
  obtain ⟨⟨bred, g⟩, -, h⟩ := bind_eq_ok.mp h
  obtain ⟨population, -, h⟩ := bind_eq_ok.mp h
  obtain ⟨c, hc, h⟩ := bind_eq_ok.mp h
  cases h
  exact ⟨c, hc, rfl⟩

variable [BoundedIndex γ]

theorem optimal_of_course [OrderedScalar α] [NonnegativeSums α] {s₀ : GeneticSearch γ α}
    {first : List (Best (List Nat) α)} {batches : List (List (Best (List Nat) α))} (hs₀ : s₀.Sound)
    (h₀ : s₀.progress.Optimal (fun a b => a < b) [first])
    (h : Course Evaluates finished s₀ batches s) :
    s.progress.Optimal (fun a b => a < b) (first :: batches) := by
  refine (h.keeps (fun batches s => s.Sound ∧ s.progress.Optimal (fun a b => a < b) batches)
    ⟨hs₀, h₀⟩ ?_ ?_).2
  · rintro batches s _ s' ⟨hs, hoptimal⟩ ⟨hstep, rfl⟩
    have hs' := (step_yields hs).of_eq hstep
    obtain ⟨c, hc, hprogress⟩ := step_eq_ok hstep
    obtain ⟨hmem, hleads⟩ := leads_of_shortest hc
    have hnumber := (hs'.sound.evaluated c hmem).isNaN_tourLength hs'.sound.distances
    refine ⟨hs'.sound, ?_⟩
    rw [hprogress]
    exact hoptimal.advance (hoptimal.best.offer ranks_lt hleads hnumber)
  · rintro batches s ⟨hs, hoptimal⟩
    exact ⟨{ hs with recorded := hoptimal.finish.toRecorded }, hoptimal.finish⟩

theorem exists_optimal [FaithfulShuffle γ] [OrderedScalar α] [NonnegativeSums α] {d : Distances α}
    {config : Config α} {g : γ} {s₀ : GeneticSearch γ α} (hstart : start d config g = .ok s₀)
    (calls : List Call) (k : Nat) :
    ∃ s batches, after calls k s₀ = .ok s ∧ Course Evaluates finished s₀ batches s ∧
      s.progress.Optimal (fun a b => a < b) (s₀.candidates :: batches) := by
  obtain ⟨hs₀, -⟩ := start_sound hstart
  obtain ⟨best, event, hprogress, hleads⟩ := start_leads hstart
  obtain ⟨s, hafter, -⟩ := after_yields hs₀ calls k
  obtain ⟨batches, hcourse⟩ := exists_course Evaluates (fun _ => rfl)
    (fun s s' hstep => ⟨_, hstep, rfl⟩) calls k s₀ s hafter
  refine ⟨s, batches, hafter, hcourse, optimal_of_course hs₀ ?_ hcourse⟩
  rw [hprogress]
  exact Progress.optimal_start event hleads

end GeneticSearch
end PopulationSearch
