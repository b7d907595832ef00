import Mathlib.Logic.Function.Basic
import PopulationSearch.Colony.Basic
import PopulationSearch.Proofs.Choice
import PopulationSearch.Proofs.Pheromone
import PopulationSearch.Proofs.Progress

/-! Colonies between the acts of a generation. An act moves one ant by one stage, so the number of
acts that each ant has behind it describes every point of a generation. -/

namespace PopulationSearch

@[reducible] def unitPower : Power Float := ⟨fun x y => if y < 0 then 1 / x else x⟩

variable {α : Type} [Scalar α]

structure Best.Honest (d : Distances α) (b : Best (List Nat) α) : Prop where
  closed : Tour.IsClosed d.cities b.solution
  length_eq : Tour.travelled d b.solution = .ok b.quality

theorem Best.Honest.offer {d : Distances α} {b : Best (List Nat) α} (h : b.Honest d)
    (fitter : α → α → Bool) {w : Walk α} (hw : w.Closed d) :
    (b.offer fitter w.tour w.length).Honest d :=
  Best.offer_of h fitter ⟨hw.tour, hw.length_eq⟩

def Walk.candidate (w : Walk α) : Best (List Nat) α := ⟨w.tour, w.length⟩

def Walk.Stage (d : Distances α) (done : Nat) (w : Walk α) : Prop :=
  if done ≤ d.cities then w.Open d ∧ w.tour.length = done else w.Closed d

theorem Walk.stage_of_le {d : Distances α} {done : Nat} {w : Walk α} (h : done ≤ d.cities) :
    w.Stage d done ↔ w.Open d ∧ w.tour.length = done := by rw [Stage, if_pos h]

theorem Walk.stage_of_lt {d : Distances α} {done : Nat} {w : Walk α} (h : d.cities < done) :
    w.Stage d done ↔ w.Closed d := by rw [Stage, if_neg (Nat.not_le.mpr h)]

theorem Walk.Stage.feasible {d : Distances α} {done : Nat} {w : Walk α} (h : w.Stage d done) :
    w.Open d ∨ w.Closed d := by
  rcases Nat.lt_or_ge d.cities done with hlt | hle
  · exact .inr ((stage_of_lt hlt).mp h)
  · exact .inl ((stage_of_le hle).mp h).1

theorem Walk.Stage.length_tour {d : Distances α} {done : Nat} {w : Walk α} (h : w.Stage d done)
    (hdone : done ≤ d.cities + 1) : w.tour.length = done := by
  rcases Nat.lt_or_ge d.cities done with hlt | hle
  · rw [((stage_of_lt hlt).mp h).tour.length_eq]
    exact Nat.le_antisymm hlt hdone
  · exact ((stage_of_le hle).mp h).2

theorem Walk.Stage.lt_of_mem_tour {d : Distances α} (hd : d.Sound) {done : Nat} {w : Walk α}
    (h : w.Stage d done) {city : Nat} (hc : city ∈ w.tour) : city < d.cities := by
  rcases h.feasible with hopen | hclosed
  · exact hopen.lt_of_mem_tour hc
  · exact hclosed.tour.lt_of_mem hd.cities_pos hc

namespace Colony

variable {κ γ : Type} {c c' : Colony κ γ α}

/-- What is promised of a colony at every point of its life. -/
structure Feasible (c : Colony κ γ α) : Prop where
  ants : ∀ ant ∈ c.ants, ant.Feasible c.distances
  best : c.progress.best.Honest c.distances

structure Sound (c : Colony κ γ α) : Prop extends Feasible c where
  distances : c.distances.Sound
  visibility : c.visibility.Square c.distances.cities
  pheromone : c.pheromone.Square c.distances.cities
  manned : c.ants ≠ []

structure SameTask (c c' : Colony κ γ α) : Prop where
  config : c'.config = c.config
  distances : c'.distances = c.distances
  visibility : c'.visibility = c.visibility
  initialTrail : c'.initialTrail = c.initialTrail
  length_ants : c'.ants.length = c.ants.length

omit [Scalar α] in
theorem SameTask.refl (c : Colony κ γ α) : c.SameTask c := ⟨rfl, rfl, rfl, rfl, rfl⟩

omit [Scalar α] in
theorem SameTask.trans {c'' : Colony κ γ α} (h : c.SameTask c') (h' : c'.SameTask c'') :
    c.SameTask c'' where
  config := h'.config.trans h.config
  distances := h'.distances.trans h.distances
  visibility := h'.visibility.trans h.visibility
  initialTrail := h'.initialTrail.trans h.initialTrail
  length_ants := h'.length_ants.trans h.length_ants

structure Continues (c c' : Colony κ γ α) : Prop where
  sound : c'.Sound
  task : c.SameTask c'

theorem Sound.continues (h : c.Sound) : c.Continues c := ⟨h, .refl c⟩

theorem Continues.trans {c'' : Colony κ γ α} (h : c.Continues c') (h' : c'.Continues c'') :
    c.Continues c'' := ⟨h'.sound, h.task.trans h'.task⟩

structure Seeded (d : Distances α) (trailOf : α → α) (walk : Walk α) (c : Colony κ γ α) : Prop where
  closed : walk.Closed d
  initialTrail : c.initialTrail = trailOf walk.length
  pheromone : c.pheromone = Grid.uniform d.cities c.initialTrail
  progress : ∃ event, c.progress = Progress.start walk.candidate event

theorem start_meets [Power α] [Source γ α] [BoundedIndex γ] {config : κ} {numAnts : Nat} {beta : α}
    {trailOf : α → α} {d : Distances α} {g : γ} (hants : 0 < numAnts) :
    Meets (start config numAnts beta trailOf d g)
      (fun c => (c.Sound ∧ c.distances = d ∧ c.config = config ∧ c.ants.length = numAnts) ∧
        ∃ walk g', (Walk.nearest d).run g = .ok (walk, g') ∧ c.Seeded d trailOf walk)
      (Rejection.Blames d.Fails) := by
  refine d.validate_meets.of_failure.bind fun _ hd => ?_
  obtain ⟨drawn, hdrawn, hclosed⟩ := Walk.nearest_yields hd g
  have hnearest : Yields ((Walk.nearest d).run g) fun drawn =>
      (Walk.nearest d).run g = .ok drawn ∧ drawn.1.Closed d := ⟨drawn, hdrawn, hdrawn, hclosed⟩
  refine (Meets.of_yields hnearest).reject.bind ?_
  rintro ⟨walk, g'⟩ ⟨hwalk, hclosed⟩
  have hvisible := Distances.visibility_meets hd beta (R := d.Fails)
  dsimp only
  cases hresult : d.visibility beta with
  | error failure =>
    rw [hresult] at hvisible
    exact hvisible
  | ok visible =>
    rw [hresult] at hvisible
    have hsound : Sound {
        config := config
        distances := d
        visibility := visible
        initialTrail := trailOf walk.length
        pheromone := Grid.uniform d.cities (trailOf walk.length)
        ants := List.replicate numAnts Walk.idle
        source := g'
        progress := Progress.start walk.candidate
          (.trailSeeded walk.length (trailOf walk.length)) } := by
      refine ⟨⟨fun ant hant => .inl (List.eq_of_mem_replicate hant), hclosed.tour,
        hclosed.length_eq⟩, hd, hvisible, Grid.square_uniform .., ?_⟩
      exact List.ne_nil_of_length_pos (List.length_replicate.symm ▸ hants)
    exact ⟨⟨hsound, rfl, rfl, List.length_replicate⟩, walk, g', hwalk, hclosed, rfl, rfl, _, rfl⟩

/-- Each ant of the colony `c'`, in a generation that began as `c`, has so many acts of its own
behind it. -/
structure Underway (c : Colony κ γ α) (done : Nat → Nat) (c' : Colony κ γ α) : Prop where
  task : c.SameTask c'
  progress : c'.progress = c.progress
  pheromone : c'.pheromone.Square c.distances.cities
  waiting : ∀ k, done k = 0 → c'.ants[k]? = c.ants[k]?
  stage : ∀ k w, 0 < done k → c'.ants[k]? = some w → w.Stage c.distances (done k)

theorem Sound.underway (h : c.Sound) : c.Underway (fun _ => 0) c where
  task := .refl c
  progress := rfl
  pheromone := h.pheromone
  waiting := fun _ _ => rfl
  stage := fun _ _ hlt => absurd hlt (Nat.lt_irrefl 0)

def Extends (k : Nat) (c' c'' : Colony κ γ α) : Prop :=
  c''.pheromone = c'.pheromone ∧ ∃ w w', c'.ants[k]? = some w ∧
    (∃ city, w'.tour = w.tour ++ [city]) ∧ c''.ants = c'.ants.set k w'

/-- In the generation that began as `c`, the ants that have been placed are on their way until they
are closed, and the others are as they were. -/
structure InStep (c : Colony κ γ α) (placed closed : Nat → Prop) (c' : Colony κ γ α) : Prop where
  waiting : ∀ k < c.ants.length, ¬ placed k → c'.ants[k]? = c.ants[k]?
  travelling : ∀ k < c.ants.length, placed k → ¬ closed k →
    ∃ w, c'.ants[k]? = some w ∧ w.Open c.distances
  home : ∀ k < c.ants.length, closed k → ∃ w, c'.ants[k]? = some w ∧ w.Closed c.distances

namespace Underway

variable {done : Nat → Nat}

theorem exists_ant (h : c.Underway done c') {k : Nat} (hk : k < c.ants.length) :
    ∃ w, c'.ants[k]? = some w :=
  ⟨_, List.getElem?_eq_getElem (h.task.length_ants.symm ▸ hk)⟩

theorem set (h : c.Underway done c') {k stage : Nat} {w : Walk α} (hstage : 0 < stage)
    (hw : w.Stage c.distances stage) (g : γ) :
    c.Underway (Function.update done k stage)
      { c' with ants := c'.ants.set k w, source := g } where
  task := { h.task with length_ants := List.length_set.trans h.task.length_ants }
  progress := h.progress
  pheromone := h.pheromone
  waiting := by
    intro i hi
    rcases eq_or_ne i k with rfl | hne
    · rw [Function.update_self] at hi
      exact absurd hi (Nat.ne_of_gt hstage)
    · rw [Function.update_of_ne hne] at hi
      rw [List.getElem?_set_ne hne.symm, h.waiting i hi]
  stage := by
    intro i w' hlt hget
    rcases eq_or_ne i k with rfl | hne
    · rw [Function.update_self]
      have hmem : i < c'.ants.length := by
        have := (List.getElem?_eq_some_iff.mp hget).1
        rwa [List.length_set] at this
      rw [List.getElem?_set_self hmem] at hget
      cases hget
      exact hw
    · rw [Function.update_of_ne hne] at hlt ⊢
      rw [List.getElem?_set_ne hne.symm] at hget
      exact h.stage i w' hlt hget

theorem place_yields [Source γ α] [BoundedIndex γ] (hc : c.Sound) (h : c.Underway done c')
    (k : Nat) :
    Yields (c'.place k) fun c'' => c.Underway (Function.update done k 1) c'' ∧
      c''.pheromone = c'.pheromone ∧
      ∃ start, c''.ants = c'.ants.set k (Walk.placed c.distances.cities start) := by
  have hn : 0 < c.distances.cities := hc.distances.cities_pos
  have hcities : c'.distances.cities = c.distances.cities := by rw [h.task.distances]
  obtain ⟨⟨start, g⟩, hdraw, hstart⟩ := Draw.below_yields (hcities.symm ▸ hn) c'.source
  apply Yields.eq_bind hdraw
  dsimp only at hstart ⊢
  rw [hcities] at hstart ⊢
  have hstage : (Walk.placed c.distances.cities start : Walk α).Stage c.distances 1 :=
    (Walk.stage_of_le hn).mpr ⟨Walk.placed_open hstart, rfl⟩
  exact .pure ⟨h.set Nat.one_pos hstage g, rfl, start, rfl⟩

theorem advance_yields (hc : c.Sound) (h : c.Underway done c') {k position : Nat} {w : Walk α}
    (hw : c'.ants[k]? = some w) (hplaced : 0 < done k) (hmore : done k < c.distances.cities)
    (hp : position < w.unvisited.length) (g : γ) :
    Yields (c'.advance k position g) fun c'' =>
      c.Underway (Function.update done k (done k + 1)) c'' ∧ c'.Extends k c'' := by
  obtain ⟨hopen, hlen⟩ := (Walk.stage_of_le hmore.le).mp (h.stage k w hplaced hw)
  apply Yields.demand_bind hw
  have hmove := hopen.advance_yields hc.distances hp
  rw [← h.task.distances] at hmove
  obtain ⟨w', hadvance, hopen', city, htour⟩ := hmove
  apply Yields.eq_bind hadvance
  rw [h.task.distances] at hopen'
  have hstage : w'.Stage c.distances (done k + 1) := by
    refine (Walk.stage_of_le hmore).mpr ⟨hopen', ?_⟩
    rw [htour, List.length_append, hlen]
    rfl
  exact .pure ⟨h.set (Nat.succ_pos _) hstage g, rfl, _, w', hw, ⟨city, htour⟩, rfl⟩

theorem close_yields (hc : c.Sound) (h : c.Underway done c') {k : Nat}
    (hk : k < c.ants.length) (hall : done k = c.distances.cities) :
    Yields (c'.close k) fun c'' =>
      c.Underway (Function.update done k (done k + 1)) c'' ∧ c'.Extends k c'' := by
  have hplaced : 0 < done k := hall ▸ hc.distances.cities_pos
  obtain ⟨w, hw⟩ := h.exists_ant hk
  obtain ⟨hopen, hlen⟩ := (Walk.stage_of_le hall.le).mp (h.stage k w hplaced hw)
  apply Yields.demand_bind hw
  have hreturn := hopen.close_yields hc.distances (hlen.trans hall)
  rw [← h.task.distances] at hreturn
  obtain ⟨w', hclose, hclosed, hcity⟩ := hreturn
  apply Yields.eq_bind hclose
  rw [h.task.distances] at hclosed
  have hstage : w'.Stage c.distances (done k + 1) :=
    (Walk.stage_of_lt (Nat.lt_succ_of_le hall.ge)).mpr hclosed
  exact .pure ⟨h.set (Nat.succ_pos _) hstage c'.source, rfl, _, w', hw, hcity, rfl⟩

theorem open_of_le (h : c.Underway done c') {k : Nat} (hk : k < c.ants.length)
    (hplaced : 0 < done k) (hmore : done k ≤ c.distances.cities) :
    ∃ w, c'.ants[k]? = some w ∧ w.Open c.distances := by
  obtain ⟨w, hw⟩ := h.exists_ant hk
  exact ⟨w, hw, ((Walk.stage_of_le hmore).mp (h.stage k w hplaced hw)).1⟩

theorem closed_of_lt (h : c.Underway done c') {k : Nat} (hk : k < c.ants.length)
    (hlast : c.distances.cities < done k) :
    ∃ w, c'.ants[k]? = some w ∧ w.Closed c.distances := by
  obtain ⟨w, hw⟩ := h.exists_ant hk
  exact ⟨w, hw, (Walk.stage_of_lt hlast).mp (h.stage k w (Nat.zero_lt_of_lt hlast) hw)⟩

theorem inStep (h : c.Underway done c') {placed closed : Nat → Prop}
    (hplaced : ∀ k < c.ants.length, placed k ↔ 0 < done k)
    (hclosed : ∀ k < c.ants.length, closed k ↔ c.distances.cities < done k) :
    c.InStep placed closed c' where
  waiting := fun k hk hnot =>
    h.waiting k (Nat.eq_zero_of_not_pos fun hpos => hnot ((hplaced k hk).mpr hpos))
  travelling := fun k hk hin hout =>
    h.open_of_le hk ((hplaced k hk).mp hin)
      (Nat.le_of_not_lt fun hlt => hout ((hclosed k hk).mpr hlt))
  home := fun k hk hin => h.closed_of_lt hk ((hclosed k hk).mp hin)

theorem all_placed (h : c.Underway done c') (hplaced : ∀ k < c.ants.length, 0 < done k) :
    ∀ ant ∈ c'.ants, ant.Open c.distances ∨ ant.Closed c.distances := by
  intro ant hant
  obtain ⟨k, hk⟩ := List.mem_iff_getElem?.mp hant
  have hlt : k < c.ants.length := h.task.length_ants ▸ (List.getElem?_eq_some_iff.mp hk).1
  exact (h.stage k ant (hplaced k hlt) hk).feasible

theorem all_closed (h : c.Underway done c')
    (hlast : ∀ k < c.ants.length, c.distances.cities < done k) :
    ∀ ant ∈ c'.ants, ant.Closed c.distances := by
  intro ant hant
  obtain ⟨k, hk⟩ := List.mem_iff_getElem?.mp hant
  have hlt : k < c.ants.length := h.task.length_ants ▸ (List.getElem?_eq_some_iff.mp hk).1
  obtain ⟨w, hw, hclosed⟩ := h.closed_of_lt hlt (hlast k hlt)
  cases hk.symm.trans hw
  exact hclosed

theorem feasible (hc : c.Sound) (h : c.Underway done c') : c'.Feasible where
  ants := by
    intro w hw
    obtain ⟨k, hk⟩ := List.mem_iff_getElem?.mp hw
    rw [h.task.distances]
    rcases Nat.eq_zero_or_pos (done k) with hzero | hpos
    · exact hc.ants w (List.mem_of_getElem? ((h.waiting k hzero).symm.trans hk))
    · exact .inr (h.stage k w hpos hk).feasible
  best := by
    rw [h.task.distances, h.progress]
    exact hc.best

theorem sound (hc : c.Sound) (h : c.Underway done c') : c'.Sound where
  toFeasible := h.feasible hc
  distances := h.task.distances ▸ hc.distances
  visibility := by
    rw [h.task.distances, h.task.visibility]
    exact hc.visibility
  pheromone := h.task.distances ▸ h.pheromone
  manned := by
    refine List.ne_nil_of_length_pos ?_
    rw [h.task.length_ants]
    exact List.length_pos_of_ne_nil hc.manned

end Underway

theorem Sound.offerLeader_yields (hc : c.Sound)
    (hclosed : ∀ ant ∈ c.ants, ant.Closed c.distances) :
    Yields c.offerLeader fun c' => c'.Sound ∧ ∃ ant ∈ c.ants,
      c' = { c with progress := c.progress.offer (fun a b => a < b) ant.tour ant.length } := by
  obtain ⟨i, ant, hlead, hmem⟩ := leader?_mem (fun a b => a.length < b.length) hc.manned
  have hant := List.mem_of_getElem? hmem
  apply Yields.demand_bind hlead
  have hbest := hc.best.offer (fun a b => a < b) (hclosed ant hant)
  exact .pure ⟨{ hc with best := hbest }, ant, hant, rfl⟩

theorem offerLeader_eq_ok (h : c.offerLeader = .ok c') :
    ∃ i ant, leader? (fun a b => a.length < b.length) c.ants = some (i, ant) ∧
      c' = { c with progress := c.progress.offer (fun a b => a < b) ant.tour ant.length } := by
  obtain ⟨⟨i, ant⟩, hleader, h⟩ := bind_eq_ok.mp h
  cases h
  exact ⟨i, ant, demand_eq_ok.mp hleader, rfl⟩

end Colony
end PopulationSearch
