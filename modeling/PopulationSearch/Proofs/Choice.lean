import PopulationSearch.Colony.Choice
import PopulationSearch.Proofs.Walk

/-! Both choice rules return a position among the unvisited cities, whatever the weights turn out to
be, or one of them is refused. -/

namespace PopulationSearch

def Error.Names {α : Type} (e : Error α) (here there : Nat) : Prop :=
  e = .zeroWeight here there ∨ e = .nonFiniteWeight here there

namespace Colony

variable {γ α : Type} [Scalar α] {d : Distances α} {p : Pheromone α} {v : Grid α} {ant : Walk α}

theorem entries_yield {g : Grid α} (hg : g.Square d.cities) (hant : ant.Open d) {here there : Nat}
    (hhere : ant.tour.getLast? = some here) (hthere : there ∈ ant.unvisited) :
    Yields (g.get here there) fun _ => True :=
  hg.get_yields (hant.lt_of_mem_tour (List.mem_of_getLast? hhere))
    (hant.lt_of_mem_unvisited hthere)

theorem weights_yields (hp : p.Square d.cities) (hv : v.Square d.cities) (hant : ant.Open d) :
    Yields (weights p v ant) fun ws => ws.length = ant.unvisited.length := by
  obtain ⟨here, hhere⟩ := hant.exists_current
  apply Yields.demand_bind hhere
  refine (Yields.mapM (R := fun _ _ => True) ant.unvisited fun there hthere => ?_).mono
    fun ws hws => hws.length_eq.symm
  refine (entries_yield hp hant hhere hthere).bind fun level _ => ?_
  exact (entries_yield hv hant hhere hthere).bind fun visible _ => .pure trivial

theorem chooseOrExploit_yields [Source γ α] (hp : p.Square d.cities) (hv : v.Square d.cities)
    (hant : ant.Open d) (hahead : 0 < ant.unvisited.length) (q0 : α) :
    Draw.Yields (chooseOrExploit p v q0 ant : Draw γ Nat) (· < ant.unvisited.length) := by
  refine (Draw.Yields.lift (weights_yields hp hv hant)).bind fun ws hws => ?_
  rw [← hws] at hahead ⊢
  refine Draw.unit_yields.bind fun q _ => ?_
  split
  · exact .pure (Wheel.heaviest_lt hahead)
  refine Draw.unit_yields.bind fun s _ => ?_
  split
  · exact .pure (Wheel.roulette_lt s hahead)
  · exact .pure (Wheel.heaviest_lt hahead)

theorem chooseOrExploit_run [Source γ α] {ws : List α} (hws : weights p v ant = .ok ws) (q0 : α)
    (g : γ) : (chooseOrExploit p v q0 ant).run g =
      .ok (if (Source.unit g).1 ≤ q0 then (Wheel.heaviest ws, (Source.unit g).2)
        else (if Scalar.isFinite (Scalar.sum ws) then
            Wheel.roulette ws (Source.unit (Source.unit g).2).1 else Wheel.heaviest ws,
          (Source.unit (Source.unit g).2).2)) := by
  simp only [chooseOrExploit, hws, StateT.run_bind, Draw.run_unit, Draw.run_lift_ok, ok_bind]
  split
  · rfl
  simp only [StateT.run_bind, Draw.run_unit, ok_bind]
  split
  · rfl
  · rfl

variable [Power α]

def wheelWeight (p : Pheromone α) (v : Grid α) (alpha : α) (here there : Nat) :
    Except (Failure α) α := do
  let level ← p.get here there
  let visible ← v.get here there
  let weight := Power.power level alpha * visible
  if weight == 0 then throw (.invalid (.zeroWeight here there))
  unless Scalar.isFinite weight do throw (.invalid (.nonFiniteWeight here there))
  return weight

theorem wheelWeights_admits (hp : p.Square d.cities) (hv : v.Square d.cities) (hant : ant.Open d)
    (hahead : 0 < ant.unvisited.length) (alpha : α) :
    Admits (wheelWeights p v alpha ant) (fun ws => ws.length = ant.unvisited.length)
      fun _ => True := by
  obtain ⟨here, hhere⟩ := hant.exists_current
  apply Admits.demand_bind hhere
  refine (Admits.mapM (S := fun _ _ => True) ant.unvisited fun there hthere => ?_).bind
    fun ws hws => ?_
  · refine (Admits.lift (entries_yield hp hant hhere hthere)).bind fun level _ => ?_
    refine (Admits.lift (entries_yield hv hant hhere hthere)).bind fun visible _ => ?_
    dsimp only
    split
    · trivial
    split <;> trivial
  have hlen : ws.length = ant.unvisited.length := hws.length_eq.symm
  split
  · exact hlen
  have hheaviest : Wheel.heaviest ws < ant.unvisited.length := by
    rw [← hlen] at hahead ⊢
    exact Wheel.heaviest_lt hahead
  have hthere := List.getElem?_eq_getElem hheaviest
  exact (Admits.lift (Yields.demand (P := fun _ => True) hthere trivial)).bind fun _ _ => trivial

/-- The weights are checked before anything is drawn: a refusal is the same from every source, and a
choice takes one draw. -/
theorem choose_eq_map [Source γ α] (p : Pheromone α) (v : Grid α) (alpha : α) (ant : Walk α)
    (g : γ) : choose p v alpha ant g = (wheelWeights p v alpha ant).map fun ws =>
      (Wheel.roulette ws (Source.unit g).1, (Source.unit g).2) := by
  rw [choose]
  cases wheelWeights p v alpha ant with
  | error failure => rfl
  | ok ws => rfl

theorem choose_admits [Source γ α] (hp : p.Square d.cities) (hv : v.Square d.cities)
    (hant : ant.Open d) (hahead : 0 < ant.unvisited.length) (alpha : α) (g : γ) :
    Admits (choose p v alpha ant g) (fun r => r.1 < ant.unvisited.length) fun _ => True := by
  refine (wheelWeights_admits hp hv hant hahead alpha).bind fun ws hws => ?_
  refine (Admits.lift (Draw.unit_yields g)).bind fun r _ => ?_
  rw [← hws] at hahead ⊢
  exact Wheel.roulette_lt r.1 hahead

theorem wheelWeights_eq_error {alpha : α} {e : Error α}
    (h : wheelWeights p v alpha ant = .error (.invalid e)) :
    ∃ here there, e.Names here there ∧ ant.tour.getLast? = some here ∧ there ∈ ant.unvisited := by
  rcases bind_eq_error.mp h with h | ⟨here, hhere, h⟩
  · exact absurd h (liftM_ne_invalid _ e)
  rw [liftM_eq_ok, Walk.current, demand_eq_ok] at hhere
  rcases bind_eq_error.mp h with h | ⟨ws, -, h⟩
  · obtain ⟨there, hthere, h⟩ := exists_of_mapM_eq_error h
    refine ⟨here, there, ?_, hhere, hthere⟩
    rcases bind_eq_error.mp h with h | ⟨level, -, h⟩
    · exact absurd h (liftM_ne_invalid _ e)
    rcases bind_eq_error.mp h with h | ⟨visible, -, h⟩
    · exact absurd h (liftM_ne_invalid _ e)
    dsimp only at h
    split at h
    · cases h
      exact .inl rfl
    split at h
    · cases h
    · cases h
      exact .inr rfl
  · split at h
    · cases h
    rcases bind_eq_error.mp h with h | ⟨there, hthere, h⟩
    · exact absurd h (liftM_ne_invalid _ e)
    rw [liftM_eq_ok, demand_eq_ok] at hthere
    cases h
    exact ⟨here, there, .inr rfl, hhere, List.mem_of_getElem? hthere⟩

theorem choose_eq_error [Source γ α] {alpha : α} {g : γ} {e : Error α}
    (h : choose p v alpha ant g = .error (.invalid e)) :
    ∃ here there, e.Names here there ∧ ant.tour.getLast? = some here ∧ there ∈ ant.unvisited := by
  rw [choose_eq_map] at h
  cases hchecked : wheelWeights p v alpha ant with
  | error failure =>
    rw [hchecked] at h
    cases h
    exact wheelWeights_eq_error hchecked
  | ok ws =>
    rw [hchecked] at h
    cases h

end Colony
end PopulationSearch
