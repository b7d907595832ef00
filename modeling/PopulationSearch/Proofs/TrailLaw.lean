import Mathlib.Algebra.BigOperators.Group.Finset.Basic
import PopulationSearch.Proofs.ColonySystem

/-! What a generation of the Ant Colony System does to the trail. A mark changes its own edge alone,
so a level depends on the number of its marks and not on their order. -/

namespace PopulationSearch.ColonySystem

open Finset

variable {γ α : Type} [Scalar α] {c c' c'' : ColonySystem γ α}

def marks (turn : Nat) : Nat := (turn - 1) / 2

def marked (ants : List (Walk α)) (turn : Nat → Nat) (k : Nat) : List (Nat × Nat) :=
  (Tour.legs (((ants[k]?).map Walk.tour).getD [])).take (marks (turn k))

omit [Scalar α] in
theorem marked_eq {ants : List (Walk α)} {k : Nat} {w : Walk α} (h : ants[k]? = some w)
    (turn : Nat → Nat) : marked ants turn k = (Tour.legs w.tour).take (marks (turn k)) := by
  rw [marked, h, Option.map_some, Option.getD_some]

omit [Scalar α] in
theorem marked_congr {ants ants' : List (Walk α)} {turn turn' : Nat → Nat} {k : Nat}
    (hants : ants'[k]? = ants[k]?) (hturn : turn' k = turn k) :
    marked ants' turn' k = marked ants turn k := by
  rw [marked, marked, hants, hturn]

def traffic (m : Nat) (ants : List (Walk α)) (turn : Nat → Nat) (leg : Nat × Nat) : Nat :=
  ∑ k ∈ range m, (marked ants turn k).count leg

/-- An act of ant `k` has drawn the levels of the legs it has added towards the initial trail. -/
structure Marks (c c' c'' : ColonySystem γ α) (turn : Nat → Nat) (k : Nat)
    (news : List (Nat × Nat)) : Prop where
  own : marked c''.ants (Function.update turn k (turn k + 1)) k = marked c'.ants turn k ++ news
  others : ∀ i, i ≠ k →
    marked c''.ants (Function.update turn k (turn k + 1)) i = marked c'.ants turn i
  levels : ∀ i < c.distances.cities, ∀ j < c.distances.cities, c''.pheromone.get i j =
    (Pheromone.blend c.config.rho c.initialTrail)^[news.count (i, j)] <$> c'.pheromone.get i j

theorem Marks.traffic_eq {turn : Nat → Nat} {k m : Nat} {news : List (Nat × Nat)}
    (h : Marks c c' c'' turn k news) (hk : k < m) (leg : Nat × Nat) :
    traffic m c''.ants (Function.update turn k (turn k + 1)) leg =
      news.count leg + traffic m c'.ants turn leg := by
  have hmem : k ∈ range m := mem_range.mpr hk
  have hrest : ∑ i ∈ (range m).erase k,
        (marked c''.ants (Function.update turn k (turn k + 1)) i).count leg =
      ∑ i ∈ (range m).erase k, (marked c'.ants turn i).count leg := by
    apply sum_congr rfl
    intro i hi
    rw [h.others i (ne_of_mem_erase hi)]
  unfold traffic
  rw [← add_sum_erase _ _ hmem, ← add_sum_erase _ _ hmem, hrest, h.own, List.count_append]
  omega

theorem marks_of_set {turn : Nat → Nat} {k : Nat} {w : Walk α}
    (hp : c''.pheromone = c'.pheromone) (hants : c''.ants = c'.ants.set k w)
    (hown : marked c''.ants (Function.update turn k (turn k + 1)) k = marked c'.ants turn k) :
    Marks c c' c'' turn k [] := by
  constructor
  case own => rw [hown, List.append_nil]
  case others =>
    intro i hi
    apply marked_congr
    · rw [hants, List.getElem?_set_ne hi.symm]
    · rw [Function.update_of_ne hi]
  case levels =>
    intro i _ j _
    rw [hp, List.count_nil, Function.iterate_zero, id_map]

theorem marks_of_place {turn : Nat → Nat} {k : Nat} (hturn : turn k = 0)
    (h : Changes c' c'' (.place k)) : Marks c c' c'' turn k [] := by
  obtain ⟨hp, start, hants⟩ := h
  apply marks_of_set hp hants
  simp [marked, marks, hturn]

theorem marks_of_extends {turn : Nat → Nat} {k : Nat} (hodd : turn k % 2 = 1)
    (hlen : ∀ w, c'.ants[k]? = some w → w.tour.length = errands (turn k))
    (h : Colony.Extends k c' c'') : Marks c c' c'' turn k [] := by
  obtain ⟨hp, w, w', hw, ⟨city, htour⟩, hants⟩ := h
  have hk : k < c'.ants.length := (List.getElem?_eq_some_iff.mp hw).1
  have hpos : 0 < turn k := by omega
  have hlegs : (Tour.legs w.tour).length = turn k / 2 := by
    rw [Tour.length_legs, hlen w hw, errands, if_neg (Nat.ne_of_gt hpos)]
    rfl
  have hw' : c''.ants[k]? = some w' := by rw [hants, List.getElem?_set_self hk]
  have hne : w.tour ≠ [] := by
    apply List.ne_nil_of_length_pos
    rw [hlen w hw]
    exact errands_pos hpos
  -- the new leg is not marked yet, and all marked ones lie before it
  have hmarks : marks (turn k + 1) = marks (turn k) := by
    unfold marks
    omega
  have hle : marks (turn k) ≤ (Tour.legs w.tour).length := by
    rw [hlegs]
    unfold marks
    omega
  apply marks_of_set hp hants
  rw [marked_eq hw', marked_eq hw, Function.update_self, hmarks, htour,
    Tour.legs_append w.tour city (List.getLast?_eq_some_getLast hne),
    List.take_append_of_le_length hle]

theorem marks_of_mark (hc : c.Sound) {turn : Nat → Nat}
    (hunder : c.Underway (fun i => errands (turn i)) c') {k : Nat} (hpos : 0 < turn k)
    (heven : turn k % 2 = 0) (hle : turn k ≤ 2 * c.distances.cities)
    (h : Changes c' c'' (.mark k)) : ∃ leg, Marks c c' c'' turn k [leg] := by
  obtain ⟨hants, w, a, b, hw, hlast, hlocal⟩ := h
  have hstage := hunder.stage k w (errands_pos hpos) hw
  have hdone : errands (turn k) = turn k / 2 + 1 := if_neg (Nat.ne_of_gt hpos)
  have hlegs : (Tour.legs w.tour).length = turn k / 2 := by
    rw [Tour.length_legs, hstage.length_tour (by omega), hdone]
    rfl
  have hmem : (a, b) ∈ Tour.legs w.tour := List.mem_of_getLast? hlast
  obtain ⟨ha, hb⟩ := Tour.mem_of_mem_legs hmem
  have hmodify := hunder.pheromone.modify_yields (hstage.lt_of_mem_tour hc.distances ha)
    (hstage.lt_of_mem_tour hc.distances hb) (Pheromone.blend c'.config.rho c'.initialTrail)
  refine ⟨(a, b), ?_⟩
  constructor
  case own =>
    obtain ⟨before, hbefore⟩ := List.getLast?_eq_some_iff.mp hlast
    have hnew : marks (turn k + 1) = (Tour.legs w.tour).length := by
      rw [hlegs]
      rfl
    have hold : marks (turn k) = before.length := by
      rw [hbefore, List.length_append, List.length_singleton] at hlegs
      unfold marks
      omega
    rw [hants, marked_eq hw, marked_eq hw, Function.update_self, hnew, List.take_length, hold,
      hbefore, List.take_left]
  case others =>
    intro i hi
    apply marked_congr
    · rw [hants]
    · rw [Function.update_of_ne hi]
  case levels =>
    intro i hi j hj
    have hlevels := (hmodify.of_eq hlocal).2 i hi j hj
    rw [hlevels, hunder.task.config, hunder.task.initialTrail, Grid.map_iterate_count_singleton]

theorem exists_marks (hc : c.Sound) {acts : List Act} {a : Act}
    (hacts : acts ++ [a] <+: schedule c.distances.cities c.ants.length)
    (hunder : c.Underway (fun i => errands (turns Act.ant acts i)) c') (h : Changes c' c'' a) :
    ∃ news, Marks c c' c'' (turns Act.ant acts) a.ant news := by
  have hn : 0 < c.distances.cities := hc.distances.cities_pos
  obtain ⟨-, hlt, ha⟩ := (timetable hn c.ants.length).next hacts
  have hmove (hodd : turns Act.ant acts a.ant % 2 = 1) (hext : Colony.Extends a.ant c' c'') :
      Marks c c' c'' (turns Act.ant acts) a.ant [] := by
    have hpos : 0 < turns Act.ant acts a.ant := by omega
    apply marks_of_extends hodd _ hext
    intro w hw
    apply (hunder.stage a.ant w (errands_pos hpos) hw).length_tour
    rw [errands, if_neg (Nat.ne_of_gt hpos)]
    omega
  cases a with
  | place k => exact ⟨[], marks_of_place (eq_place_iff.mp ha.symm) h⟩
  | move k =>
    obtain ⟨hodd, -⟩ := eq_move_iff.mp ha.symm
    exact ⟨[], hmove hodd h⟩
  | mark k =>
    obtain ⟨hpos, heven⟩ := eq_mark_iff.mp ha.symm
    obtain ⟨leg, hleg⟩ := marks_of_mark hc hunder hpos heven (Nat.le_of_lt_succ hlt) h
    exact ⟨[leg], hleg⟩
  | close k =>
    have hlast := (eq_close_iff hn).mp ha.symm
    have hodd : turns Act.ant acts (Act.close k).ant % 2 = 1 := by
      rw [hlast]
      omega
    exact ⟨[], hmove hodd h⟩

section
variable [Source γ α] [BoundedIndex γ]

theorem levels_of_beginning (hc : c.Sound) {acts : List Act}
    (hacts : acts <+: schedule c.distances.cities c.ants.length) :
    Yields (acts.foldlM perform c) fun c' =>
      c.Underway (fun i => errands (turns Act.ant acts i)) c' ∧
        ∀ i < c.distances.cities, ∀ j < c.distances.cities, c'.pheromone.get i j =
          (Pheromone.blend c.config.rho c.initialTrail)^[traffic c.ants.length c'.ants
            (turns Act.ant acts) (i, j)] <$> c.pheromone.get i j := by
  have hn : 0 < c.distances.cities := hc.distances.cities_pos
  refine Yields.foldlM (fun acts c' => c.Underway (fun i => errands (turns Act.ant acts i)) c' ∧
    ∀ i < c.distances.cities, ∀ j < c.distances.cities, c'.pheromone.get i j =
      (Pheromone.blend c.config.rho c.initialTrail)^[traffic c.ants.length c'.ants
        (turns Act.ant acts) (i, j)] <$> c.pheromone.get i j) acts ⟨hc.underway, ?_⟩ ?_
  · intro i _ j _
    have hnone : traffic c.ants.length c.ants (turns Act.ant []) (i, j) = 0 := by
      simp [traffic, marked, marks, turns]
    rw [hnone, Function.iterate_zero, id_map]
  · rintro done a hdone c' ⟨hunder, hlevels⟩
    have hnext := hdone.trans hacts
    have hk : a.ant < c.ants.length := ((timetable hn c.ants.length).next hnext).1
    refine (perform_yields hc hnext hunder).mono ?_
    rintro c'' ⟨hunder', hchanges⟩
    obtain ⟨news, hmarks⟩ := exists_marks hc hnext hunder hchanges
    refine ⟨hunder', fun i hi j hj => ?_⟩
    rw [hmarks.levels i hi j hj, hlevels i hi j hj, turns_append, hmarks.traffic_eq hk,
      Function.iterate_add, comp_map]

end

/-- How many of the ants travel an edge on their tours. -/
def passes (ants : List (Walk α)) (leg : Nat × Nat) : Nat :=
  ants.countP fun ant => leg ∈ Tour.legs ant.tour

omit [Scalar α] in
theorem sum_eq_passes (ants : List (Walk α)) (leg : Nat × Nat) :
    ∑ k ∈ range ants.length,
      ((ants[k]?).map fun ant => if leg ∈ Tour.legs ant.tour then 1 else 0).getD 0 =
        passes ants leg := by
  induction ants with
  | nil => rfl
  | cons w ants ih =>
    unfold passes at ih ⊢
    rw [List.length_cons, sum_range_succ', List.countP_cons]
    simp only [List.getElem?_cons_succ, ih, List.getElem?_cons_zero, Option.map_some,
      Option.getD_some, decide_eq_true_eq]

theorem traffic_eq_passes {d : Distances α} {ants : List (Walk α)} {turn : Nat → Nat}
    (hclosed : ∀ ant ∈ ants, ant.Closed d)
    (hturn : ∀ k < ants.length, turn k = 2 * d.cities + 1) (leg : Nat × Nat) :
    traffic ants.length ants turn leg = passes ants leg := by
  rw [← sum_eq_passes]
  apply sum_congr rfl
  intro k hk
  have hlt : k < ants.length := mem_range.mp hk
  have hw : ants[k]? = some ants[k] := List.getElem?_eq_getElem hlt
  have htour := (hclosed ants[k] (List.getElem_mem hlt)).tour
  have hall : (Tour.legs ants[k].tour).length ≤ marks (turn k) := by
    rw [Tour.length_legs, htour.length_eq, hturn k hlt]
    unfold marks
    omega
  rw [marked_eq hw, List.take_of_length_le hall, htour.nodup_legs.count, hw]
  rfl

/-- The level is drawn towards the initial trail once for each ant that travels the edge, and then
towards the inverse of the best length if the best tour travels it. -/
def renewed (c c' : ColonySystem γ α) (leg : Nat × Nat) (level : α) : α :=
  let pulled := (fun t => (1 - c.config.rho) * t + c.config.rho * c.initialTrail)^[
    passes c'.ants leg] level
  if leg ∈ Tour.legs c'.progress.best.solution then
    (1 - c.config.alpha) * pulled + c.config.alpha * (1 / c'.progress.best.quality)
  else pulled

structure TrailLaw (c c' : ColonySystem γ α) : Prop where
  closed : ∀ ant ∈ c'.ants, ant.Closed c.distances
  level : ∀ i < c.distances.cities, ∀ j < c.distances.cities, ∃ level,
    c.pheromone.get i j = .ok level ∧ c'.pheromone.get i j = .ok (renewed c c' (i, j) level)
  untouched : ∀ i < c.distances.cities, ∀ j < c.distances.cities,
    (∀ ant ∈ c'.ants, (i, j) ∉ Tour.legs ant.tour) →
    (i, j) ∉ Tour.legs c'.progress.best.solution → c'.pheromone.get i j = c.pheromone.get i j
  diagonal : ∀ i < c.distances.cities, c'.pheromone.get i i = c.pheromone.get i i

theorem renewed_of_untouched {leg : Nat × Nat}
    (hants : ∀ ant ∈ c'.ants, leg ∉ Tour.legs ant.tour)
    (hbest : leg ∉ Tour.legs c'.progress.best.solution) (level : α) :
    renewed c c' leg level = level := by
  have hnone : passes c'.ants leg = 0 := by
    unfold passes
    rw [List.countP_eq_zero]
    simpa using hants
  unfold renewed
  rw [if_neg hbest, hnone, Function.iterate_zero, id]

section
variable [Source γ α] [BoundedIndex γ]

theorem Generation.level (hc : c.Sound) (hclosed : ∀ ant ∈ c'.ants, ant.Closed c.distances)
    {c₁ : ColonySystem γ α} (h : Generation c c₁ c') {i j : Nat} (hi : i < c.distances.cities)
    (hj : j < c.distances.cities) : ∃ level, c.pheromone.get i j = .ok level ∧
      c'.pheromone.get i j = .ok (renewed c c' (i, j) level) := by
  have hn : 0 < c.distances.cities := hc.distances.cities_pos
  obtain ⟨hunder, hlevels⟩ := (levels_of_beginning hc List.prefix_rfl).of_eq h.performed
  have hlen : c₁.ants.length = c.ants.length := hunder.task.length_ants
  have hpasses : traffic c.ants.length c₁.ants
      (turns Act.ant (schedule c.distances.cities c.ants.length)) (i, j) =
        passes c'.ants (i, j) := by
    rw [h.ants, ← hlen]
    rw [h.ants] at hclosed
    apply traffic_eq_passes hclosed
    intro k hk
    exact (timetable hn c₁.ants.length).turns_schedule hk
  obtain ⟨level, hlevel, -⟩ := hc.pheromone.get_yields hi hj
  refine ⟨level, hlevel, ?_⟩
  rw [h.pheromone i hi j hj, hlevels i hi j hj, hpasses, hlevel]
  simp only [Pheromone.blend_eq, renewed]
  split <;> rfl

theorem trailLaw_of_step (hc : c.Sound) :
    Yields (step c) fun c' => c.Continues c' ∧ TrailLaw c c' := by
  refine (step_yields hc).mono ?_
  rintro c' ⟨hcontinues, hclosed, c₁, hgeneration⟩
  have hbest := hcontinues.sound.best.closed
  rw [hcontinues.task.distances] at hbest
  have huntouched {i j : Nat} (hi : i < c.distances.cities) (hj : j < c.distances.cities)
      (hants : ∀ ant ∈ c'.ants, (i, j) ∉ Tour.legs ant.tour)
      (hbest : (i, j) ∉ Tour.legs c'.progress.best.solution) :
      c'.pheromone.get i j = c.pheromone.get i j := by
    obtain ⟨level, hlevel, hlevel'⟩ := hgeneration.level hc hclosed hi hj
    rw [hlevel', hlevel, renewed_of_untouched hants hbest]
  refine ⟨hcontinues, hclosed, fun i hi j hj => hgeneration.level hc hclosed hi hj,
    fun i hi j hj => huntouched hi hj, fun i hi => ?_⟩
  apply huntouched hi hi
  · intro ant hant hleg
    exact (hclosed ant hant).tour.ne_of_mem_legs hc.distances.two_le hleg rfl
  · intro hleg
    exact hbest.ne_of_mem_legs hc.distances.two_le hleg rfl

end

omit [Scalar α] in
theorem passes_eq_of_perm {ants ants' : List (Walk α)}
    (h : (ants.map Walk.tour).Perm (ants'.map Walk.tour)) (leg : Nat × Nat) :
    passes ants leg = passes ants' leg := by
  have hcount := h.countP_eq fun tour => decide (leg ∈ Tour.legs tour)
  rwa [List.countP_map, List.countP_map] at hcount

theorem TrailLaw.pheromone_eq (h : TrailLaw c c') (h' : TrailLaw c c'')
    (hc : Colony.Continues c c') (hc' : Colony.Continues c c'')
    (htours : (c'.ants.map Walk.tour).Perm (c''.ants.map Walk.tour))
    (hbest : c'.progress.best.solution = c''.progress.best.solution) :
    c'.pheromone = c''.pheromone := by
  have hquality : c'.progress.best.quality = c''.progress.best.quality := by
    have hlen := hc.sound.best.length_eq
    have hlen' := hc'.sound.best.length_eq
    rw [hc.task.distances, hbest] at hlen
    rw [hc'.task.distances, hlen] at hlen'
    exact Except.ok.inj hlen'
  have hsquare := hc.sound.pheromone
  have hsquare' := hc'.sound.pheromone
  rw [hc.task.distances] at hsquare
  rw [hc'.task.distances] at hsquare'
  apply hsquare.ext hsquare'
  intro i hi j hj
  obtain ⟨level, hlevel, hnew⟩ := h.level i hi j hj
  obtain ⟨level', hlevel', hnew'⟩ := h'.level i hi j hj
  cases hlevel.symm.trans hlevel'
  rw [hnew, hnew']
  unfold renewed
  rw [passes_eq_of_perm htours, hbest, hquality]

/-- In every colony that calls can lead to, a generation comes to its end and changes each level by
what is travelled alone. -/
theorem trail_law [Power α] [Source γ α] [BoundedIndex γ] {d : Distances α} {config : Config α}
    {g : γ} {c₀ : ColonySystem γ α} (hstart : start d config g = .ok c₀) (calls : List Call)
    (k : Nat) :
    ∃ c, after calls k c₀ = .ok c ∧ c.distances = d ∧ c.config = config ∧
      (∀ g' : γ, ∃ c', step { c with source := g' } = .ok c' ∧ TrailLaw c c') ∧
      ∀ (g₁ g₂ : γ) (c₁ c₂ : ColonySystem γ α), step { c with source := g₁ } = .ok c₁ →
        step { c with source := g₂ } = .ok c₂ →
        (c₁.ants.map Walk.tour).Perm (c₂.ants.map Walk.tour) →
        c₁.progress.best.solution = c₂.progress.best.solution → c₁.pheromone = c₂.pheromone := by
  obtain ⟨hsound, rfl, rfl, -⟩ := start_sound hstart
  obtain ⟨c, hafter, hc, htask⟩ := after_yields hsound calls k
  have hsteps (g' : γ) : Yields (step { c with source := g' }) fun c' =>
      c.Continues c' ∧ TrailLaw c c' := by
    have hdrawn : Colony.Sound ({ c with source := g' } : ColonySystem γ α) := { hc with }
    refine (trailLaw_of_step hdrawn).mono ?_
    rintro c' ⟨h, hlaw⟩
    exact ⟨⟨h.sound, { h.task with }⟩, { hlaw with }⟩
  refine ⟨c, hafter, htask.distances, htask.config, fun g' => ?_, ?_⟩
  · obtain ⟨c', hstep, -, hlaw⟩ := hsteps g'
    exact ⟨c', hstep, hlaw⟩
  · intro g₁ g₂ c₁ c₂ h₁ h₂ htours hbest
    obtain ⟨hc₁, hlaw₁⟩ := (hsteps g₁).of_eq h₁
    obtain ⟨hc₂, hlaw₂⟩ := (hsteps g₂).of_eq h₂
    exact hlaw₁.pheromone_eq hlaw₂ hc₁ hc₂ htours hbest

theorem trail_law_fourCities :
    letI := unitPower
    ∃ c₀ : ColonySystem Generator Float,
      start fourCities ⟨3, 2, 1, 0.5, 0.1, 0.1, 7⟩ (Generator.ofSeed 7) = .ok c₀ ∧
      ∃ c, after [.run, .step] 1 c₀ = .ok c ∧ ∃ c', step c = .ok c' ∧ TrailLaw c c' := by
  let := unitPower
  obtain ⟨c₀, hstart⟩ : ∃ c₀ : ColonySystem Generator Float,
      start fourCities ⟨3, 2, 1, 0.5, 0.1, 0.1, 7⟩ (Generator.ofSeed 7) = .ok c₀ :=
    exists_eq_ok (by decide +kernel)
  obtain ⟨c, hafter, -, -, hlaw, -⟩ := trail_law hstart [.run, .step] 1
  exact ⟨c₀, hstart, c, hafter, hlaw c.source⟩

end PopulationSearch.ColonySystem
