import PopulationSearch.Colony.Pheromone
import PopulationSearch.Proofs.Tour

/-! A rule along a tour reaches each level as often as the tour travels its edge. -/

namespace PopulationSearch

theorem Distances.visibility_meets {α : Type} [Scalar α] [Power α] {d : Distances α} (hd : d.Sound)
    (beta : α) {R : Fault → Prop} :
    Meets (d.visibility beta) (fun v => v.Square d.cities) (Failure.Blames R) := by
  refine Grid.build_meets fun i hi j hj => ?_
  split
  case isTrue => exact trivial
  case isFalse hij =>
    have hdistance := Meets.of_yields (R := R) (hd.edge i hi j hj hij)
    refine hdistance.of_fault.bind fun value _ => ?_
    dsimp only
    split
    case isTrue => exact trivial
    case isFalse => exact trivial

theorem Distances.visibility_eq_ok {α : Type} [Scalar α] [Power α] {d : Distances α} {beta : α}
    {v : Grid α} (h : d.visibility beta = .ok v) {i j : Nat} {x : α} (hi : i < d.cities)
    (hj : j < d.cities) (hij : i ≠ j) (hx : d.distance i j = .ok x) :
    v.get i j = .ok (Power.power x (-beta)) := by
  obtain ⟨visible, hentry, hget⟩ := Grid.build_eq_ok h hi hj
  rw [if_neg hij] at hentry
  obtain ⟨value, hvalue, hentry⟩ := bind_eq_ok.mp hentry
  rw [liftM_eq_ok] at hvalue
  cases hx.symm.trans hvalue
  dsimp only at hentry
  split at hentry
  · cases hentry
    exact hget
  · cases hentry

namespace Pheromone

variable {α : Type} {p : Pheromone α} {n : Nat}

theorem blend_eq [Scalar α] (rate goal : α) :
    blend rate goal = fun level => (1 - rate) * level + rate * goal := rfl

theorem legs_yields (hp : p.Square n) (f : α → α) {legs : List (Nat × Nat)}
    (hlegs : ∀ leg ∈ legs, leg.1 < n ∧ leg.2 < n) :
    Yields (legs.foldlM (fun (p : Pheromone α) leg => p.modify leg.1 leg.2 f) p) fun p' =>
      p'.Square n ∧ ∀ i < n, ∀ j < n, p'.get i j = (f^[legs.count (i, j)]) <$> p.get i j := by
  refine Yields.foldlM (fun done (p' : Pheromone α) => p'.Square n ∧
    ∀ i < n, ∀ j < n, p'.get i j = (f^[done.count (i, j)]) <$> p.get i j)
    legs ⟨hp, fun i _ j _ => (id_map _).symm⟩ ?_
  rintro done leg hdone p' ⟨hp', hget⟩
  obtain ⟨ha, hb⟩ := hlegs leg (hdone.mem (List.mem_append_right _ (List.mem_singleton_self _)))
  refine (hp'.modify_yields ha hb f).mono ?_
  rintro p'' ⟨hp'', hmodify⟩
  refine ⟨hp'', fun i hi j hj => ?_⟩
  rw [hmodify i hi j hj, ← Grid.map_iterate_count_singleton, hget i hi j hj, ← comp_map,
    ← Function.iterate_add, List.count_append, Nat.add_comm]

theorem along_yields (hp : p.Square n) (f : α → α) {tour : List Nat}
    (htour : ∀ city ∈ tour, city < n) :
    Yields (along (fun i j p => p.modify i j f) tour p) fun p' => p'.Square n ∧
      ∀ i < n, ∀ j < n, p'.get i j = (f^[(Tour.legs tour).count (i, j)]) <$> p.get i j := by
  apply legs_yields hp f
  intro leg hleg
  obtain ⟨ha, hb⟩ := Tour.mem_of_mem_legs hleg
  exact ⟨htour leg.1 ha, htour leg.2 hb⟩

def onLegs (f : α → α) (tour : List Nat) (leg : Nat × Nat) (level : α) : α :=
  if (Tour.legs tour).contains leg then f level else level

theorem onLegs_eq (f : α → α) (tour : List Nat) (leg : Nat × Nat) :
    onLegs f tour leg = if leg ∈ Tour.legs tour then f else id := by
  funext level
  simp only [onLegs, List.contains_iff_mem]
  split
  · rfl
  · rfl

theorem along_closed_yields (hp : p.Square n) (f : α → α) (hn : 0 < n) {tour : List Nat}
    (htour : Tour.IsClosed n tour) :
    Yields (along (fun i j p => p.modify i j f) tour p) fun p' => p'.Square n ∧
      ∀ i < n, ∀ j < n, p'.get i j = onLegs f tour (i, j) <$> p.get i j := by
  refine (along_yields hp f fun city => htour.lt_of_mem hn).mono ?_
  rintro p' ⟨hp', hget⟩
  refine ⟨hp', fun i hi j hj => ?_⟩
  rw [hget i hi j hj, htour.nodup_legs.count, onLegs_eq]
  split
  · rfl
  · rfl

end Pheromone
end PopulationSearch
