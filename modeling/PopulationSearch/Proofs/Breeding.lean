import PopulationSearch.Genetic.Search
import PopulationSearch.Proofs.Crossover
import PopulationSearch.Proofs.Mutation
import PopulationSearch.Proofs.Walk

/-! Breeding keeps the number of members and their genes permutations. Lengths and fitnesses are old
ones until the members are evaluated. -/

namespace PopulationSearch

open Genetic

variable {γ α : Type} [Scalar α] [Source γ α]

namespace Genetic

structure Chromosome.Evaluated (d : Distances α) (c : Chromosome α) : Prop where
  perm : c.genes.Perm (List.range d.cities)
  length_eq : Tour.cyclicLength d c.genes = .ok c.tourLength
  fitness_eq : c.fitness = 1 / c.tourLength

omit [Source γ α] in
theorem Chromosome.evaluate_yields {d : Distances α} (hd : d.Sound) {c : Chromosome α}
    (h : c.genes.Perm (List.range d.cities)) : Yields (c.evaluate d) (Evaluated d) := by
  obtain ⟨length, hlength, -⟩ := Tour.cyclicLength_yields hd h
  apply Yields.eq_bind hlength
  exact .pure ⟨h, hlength, rfl⟩

omit [Scalar α] in
theorem randomSegment_yields [BoundedIndex γ] {n : Nat} (hn : 0 < n) :
    Draw.Yields (randomSegment n : Draw γ (Nat × Nat)) fun s => s.1 ≤ s.2 ∧ s.2 < n := by
  refine (Draw.below_yields hn).bind fun a ha => (Draw.below_yields hn).bind fun b hb => ?_
  apply Draw.Yields.pure
  split
  case isTrue hle => exact ⟨hle, hb⟩
  case isFalse hgt => exact ⟨Nat.le_of_not_le hgt, ha⟩

omit [Scalar α] in
theorem crossover_yields [BoundedIndex γ] {n : Nat} (hn : 0 < n) {p q : List Nat}
    (hp : p.Perm (List.range n)) (hq : q.Perm (List.range n)) :
    Draw.Yields (crossover p q : Draw γ (List Nat × List Nat)) fun children =>
      children.1.Perm (List.range n) ∧ children.2.Perm (List.range n) := by
  have hlen := Tour.length_of_perm hp
  have hne : ¬ p.length = 0 := by
    rw [hlen]
    exact Nat.ne_of_gt hn
  rw [crossover, if_neg hne, hlen]
  refine (randomSegment_yields hn).bind ?_
  rintro ⟨first, last⟩ ⟨hfirst, hlast⟩
  apply Draw.Yields.lift
  refine (crossoverAt_yields hp hq hfirst hlast).mono ?_
  rintro children ⟨⟨m₁, hx₁, hc₁⟩, m₂, hx₂, hc₂⟩
  exact ⟨hc₁.perm hx₁, hc₂.perm hx₂⟩

omit [Scalar α] in
theorem swapMutation_yields [BoundedIndex γ] (l : List Nat) :
    Draw.Yields (swapMutation l : Draw γ (List Nat)) fun l' => l'.Perm l := by
  unfold swapMutation
  split
  case isTrue => exact .pure (.refl l)
  case isFalse hlong =>
    have htwo : 2 ≤ l.length := Nat.le_of_not_lt hlong
    refine (Draw.below_yields (Nat.zero_lt_of_lt htwo)).bind fun i hi => ?_
    refine (Draw.below_yields (Nat.sub_pos_of_lt htwo)).bind fun drawn hdrawn => ?_
    obtain ⟨hj, -⟩ := (otherPlace_bijOn hi).mapsTo hdrawn
    exact .lift ((exchange_yields hi hj).mono fun _ => Exchanged.perm)

end Genetic

namespace GeneticSearch

structure Bred (n size : Nat) (population : List (Chromosome α)) : Prop where
  length_eq : population.length = size
  perm : ∀ c ∈ population, c.genes.Perm (List.range n)

variable {n size : Nat} {population : List (Chromosome α)}

omit [Scalar α] in
theorem Bred.set (h : Bred n size population) (i : Nat) {c : Chromosome α}
    (hc : c.genes.Perm (List.range n)) : Bred n size (population.set i c) := by
  refine ⟨List.length_set.trans h.length_eq, fun c' hc' => ?_⟩
  rcases List.mem_or_eq_of_mem_set hc' with hold | rfl
  · exact h.perm c' hold
  · exact hc

omit [Scalar α] in
theorem Bred.exists_member (h : Bred n size population) {i : Nat} (hi : i < size) :
    ∃ c, population[i]? = some c ∧ c.genes.Perm (List.range n) := by
  rw [← h.length_eq] at hi
  exact ⟨population[i], List.getElem?_eq_getElem hi, h.perm _ (List.getElem_mem hi)⟩

theorem selection_yields (hne : population ≠ []) (amount : Nat) :
    Draw.Yields (selection amount population : Draw γ (List (Chromosome α))) fun selected =>
      selected.length = amount ∧ ∀ c ∈ selected, c ∈ population := by
  have hpos : 0 < (population.map (·.fitness)).length := by
    rw [List.length_map]
    exact List.length_pos_of_ne_nil hne
  refine (Wheel.select_yields amount hpos).bind fun picks hpicks => ?_
  rw [List.length_map] at hpicks
  apply Draw.Yields.mono (P := List.Forall₂ (fun _ c => c ∈ population) picks)
  · refine Draw.Yields.mapM picks fun i hi => .lift ?_
    have hlt := hpicks.2 i hi
    exact .demand (List.getElem?_eq_getElem hlt) (List.getElem_mem hlt)
  · intro selected h
    exact ⟨h.length_eq.symm.trans hpicks.1, forall_mem_of_forall₂ h fun _ _ hc => hc⟩

theorem pairUp_yields [BoundedIndex γ] (hn : 0 < n) (rate : α)
    {state : Option Nat × List (Chromosome α)} (h : Bred n size state.2)
    (hwaiting : ∀ mate, state.1 = some mate → mate < size) {i : Nat} (hi : i < size) :
    Draw.Yields (pairUp rate state i : Draw γ (Option Nat × List (Chromosome α))) fun state' =>
      Bred n size state'.2 ∧ ∀ mate, state'.1 = some mate → mate < size := by
  refine Draw.unit_yields.bind fun r _ => ?_
  split
  case isTrue => exact .pure ⟨h, hwaiting⟩
  case isFalse =>
    obtain ⟨waiting, members⟩ := state
    cases waiting with
    | none =>
      refine .pure ⟨h, fun mate hmate => ?_⟩
      cases hmate
      exact hi
    | some mate =>
      obtain ⟨a, ha, hpa⟩ := h.exists_member (hwaiting mate rfl)
      obtain ⟨b, hb, hpb⟩ := h.exists_member hi
      apply Draw.Yields.demand_bind ha
      apply Draw.Yields.demand_bind hb
      refine (crossover_yields hn hpa hpb).bind ?_
      rintro ⟨c₁, c₂⟩ ⟨hc₁, hc₂⟩
      exact .pure ⟨(h.set mate hc₁).set i hc₂, fun mate hmate => by cases hmate⟩

theorem crossover_yields [BoundedIndex γ] (hn : 0 < n) (rate : α) (h : Bred n size population) :
    Draw.Yields (crossover rate population : Draw γ (List (Chromosome α))) (Bred n size) := by
  refine (Draw.Yields.foldlM (fun state => Bred n size state.2 ∧
    ∀ mate, state.1 = some mate → mate < size) _ ⟨h, fun mate hmate => by cases hmate⟩ ?_).bind
    fun state hstate => .pure hstate.1
  intro i hi state hstate
  rw [List.mem_range, h.length_eq] at hi
  exact pairUp_yields hn rate hstate.1 hstate.2 hi

theorem mutation_yields [BoundedIndex γ] (rate : α) (h : Bred n size population) :
    Draw.Yields (mutation rate population : Draw γ (List (Chromosome α))) (Bred n size) := by
  apply Draw.Yields.mono (P := List.Forall₂
    (fun _ c' => c'.genes.Perm (List.range n)) population)
  · refine Draw.Yields.mapM population fun c hc => ?_
    refine Draw.unit_yields.bind fun r _ => ?_
    split
    · exact (swapMutation_yields c.genes).bind fun genes hgenes =>
        .pure (hgenes.trans (h.perm c hc))
    · exact .pure (h.perm c hc)
  · intro mutated hmutated
    exact ⟨hmutated.length_eq.symm.trans h.length_eq,
      forall_mem_of_forall₂ hmutated fun _ _ hc => hc⟩

theorem breed_yields [BoundedIndex γ] (hn : 0 < n) (config : Config α)
    (h : Bred n size population) (hsize : 0 < size) :
    Draw.Yields (breed config population : Draw γ (List (Chromosome α)))
      (Bred n config.populationSize) := by
  have hne : population ≠ [] := List.ne_nil_of_length_pos (h.length_eq.symm ▸ hsize)
  refine (selection_yields hne config.populationSize).bind fun selected hselected => ?_
  have hbred : Bred n config.populationSize selected :=
    ⟨hselected.1, fun c hc => h.perm c (hselected.2 c hc)⟩
  exact (crossover_yields hn config.crossoverRate hbred).bind fun crossed hcrossed =>
    mutation_yields config.mutationRate hcrossed

theorem firstGenes_yields [BoundedIndex γ] [FaithfulShuffle γ] {d : Distances α} (hd : d.Sound)
    (greedy others : Nat) :
    Draw.Yields (firstGenes d greedy others : Draw γ (List (List Nat))) fun genes =>
      genes.length = greedy + others ∧ ∀ g ∈ genes, g.Perm (List.range d.cities) := by
  have htour : Draw.Yields (do let walk ← Walk.nearest d; return walk.tour.dropLast : Draw γ _)
      fun g => g.Perm (List.range d.cities) := by
    refine (Walk.nearest_yields hd).bind fun walk hwalk => .pure ?_
    rw [hwalk.tour.dropLast_eq]
    exact hwalk.tour.perm
  refine (Draw.Yields.times greedy htour).bind fun tours htours => ?_
  refine (Draw.Yields.times others (Draw.shuffle_yields _)).bind fun shuffles hshuffles => ?_
  apply Draw.Yields.pure
  refine ⟨?_, fun g hg => ?_⟩
  · rw [List.length_append, htours.1, hshuffles.1]
  · rcases List.mem_append.mp hg with hg | hg
    · exact htours.2 g hg
    · exact hshuffles.2 g hg

omit [Source γ α] in
theorem evaluated_yields {d : Distances α} (hd : d.Sound) (h : Bred d.cities size population) :
    Yields (population.mapM fun c => c.evaluate d) fun evaluated =>
      evaluated.length = size ∧ ∀ c ∈ evaluated, c.Evaluated d := by
  refine (Yields.mapM (R := fun _ c' => c'.Evaluated d) population fun c hc =>
    Chromosome.evaluate_yields hd (h.perm c hc)).mono fun evaluated he => ?_
  exact ⟨he.length_eq.symm.trans h.length_eq, forall_mem_of_forall₂ he fun _ _ hc => hc⟩

omit [Source γ α] in
theorem shortest_yields (hne : population ≠ []) :
    Yields (shortest population) fun c => c ∈ population := by
  obtain ⟨i, c, hlead, hi⟩ := leader?_mem (fun a b => a.tourLength < b.tourLength) hne
  apply Yields.demand_bind hlead
  exact .pure (List.mem_of_getElem? hi)

end GeneticSearch
end PopulationSearch
