import PopulationSearch.Proofs.Exploitation
import PopulationSearch.Genetic.Search

/-! Tours in another unit of length: no comparison and no wheel can see the unit. -/

namespace PopulationSearch

section Definitions

variable {κ γ σ α : Type} [Scalar α] (f : α)

def Distances.scale (d : Distances α) : Distances α :=
  { d with distance := fun i j => (f * ·) <$> d.distance i j }

def Walk.scale (w : Walk α) : Walk α := { w with length := f * w.length }

def Best.scale (b : Best σ α) : Best σ α := { b with quality := f * b.quality }

def Event.scale : Event α → Event α
  | .trailSeeded length trail => .trailSeeded (f * length) (trail / f)
  | .populated greedy best => .populated greedy (f * best)
  | .scattered best => .scattered (f * best)
  | .generation index best => .generation index (f * best)
  | .complete generations best => .complete generations (f * best)
  | .aborted error index => .aborted error index

def Progress.scale (p : Progress σ α) : Progress σ α where
  best := p.best.scale f
  generation := p.generation
  history := p.history.map (f * ·)
  log := p.log.map (Event.scale f)

/-- The colony in another unit. Visibilities have a unit of their own, with its own factor. -/
def Colony.scale (visible : α) (c : Colony κ γ α) : Colony κ γ α where
  config := c.config
  distances := c.distances.scale f
  visibility := c.visibility.map (visible * ·)
  initialTrail := c.initialTrail / f
  pheromone := c.pheromone.map (· / f)
  ants := c.ants.map (Walk.scale f)
  source := c.source
  progress := c.progress.scale f

def Genetic.Chromosome.scale (c : Genetic.Chromosome α) : Genetic.Chromosome α :=
  { c with tourLength := f * c.tourLength, fitness := c.fitness / f }

def GeneticSearch.scale (s : GeneticSearch γ α) : GeneticSearch γ α where
  config := s.config
  distances := s.distances.scale f
  population := s.population.map (Genetic.Chromosome.scale f)
  source := s.source
  progress := s.progress.scale f

@[simp] theorem Distances.cities_scale (d : Distances α) : (d.scale f).cities = d.cities := rfl

@[simp] theorem Distances.distance_scale (d : Distances α) (i j : Nat) :
    (d.scale f).distance i j = (f * ·) <$> d.distance i j := rfl

end Definitions

namespace Grid

theorem build_comm {ε α : Type} {h : α → α} {n : Nat} {entry entry' : Nat → Nat → Except ε α}
    (hentry : ∀ i < n, ∀ j < n, entry' i j = h <$> entry i j) :
    build n entry' = Grid.map h <$> build n entry := by
  have hcells : (positions n).mapM (fun p => entry' p.1 p.2) =
      List.map h <$> (positions n).mapM fun p => entry p.1 p.2 := by
    refine mapM_comm _ fun p hp => ?_
    obtain ⟨hi, hj⟩ := mem_positions.mp hp
    exact hentry p.1 hi p.2 hj
  simp [build, hcells, Grid.map]

end Grid

theorem Distances.Sound.validate_eq_ok {α : Type} [Scalar α] {d : Distances α} (h : d.Sound) :
    d.validate = .ok () := by
  have htwo := h.two_le
  rw [validate, if_neg (by omega), if_neg (by omega)]
  refine forM_eq_ok fun edge hedge => ?_
  obtain ⟨hi, hj, hij⟩ := Grid.mem_offDiagonal.mp hedge
  obtain ⟨x, hx, hgood⟩ := h.edge _ hi _ hj hij
  rw [hx, liftM_ok, ok_bind, if_pos hgood]
  rfl

section Exact

variable {K : Type} [Field K] [LinearOrder K] [FloorSemiring K] {γ σ : Type} {f : K}
  {d : Distances K}

attribute [local instance] Scalar.exact growingSums_exact nonnegativeSums_exact

theorem leader?_map_scale [IsStrictOrderedRing K] {β : Type} (hf : 0 < f) (length : β → K)
    {h : β → β} (hlength : ∀ x, length (h x) = f * length x) (l : List β) :
    leader? (fun a b => length a < length b) (l.map h) =
      (leader? (fun a b => length a < length b) l).map (Prod.map id h) := by
  rw [leader?_map]
  simp only [hlength, mul_lt_mul_iff_right₀ hf]

namespace Wheel

variable {ws : List K}

theorem sum_map_mul (f : K) (ws : List K) :
    Scalar.sum (ws.map (f * ·)) = f * Scalar.sum ws := by
  have hfold (reached : K) : (ws.map (f * ·)).foldl (· + ·) (f * reached) =
      f * ws.foldl (· + ·) reached := by
    induction ws generalizing reached with
    | nil => rfl
    | cons w ws ih =>
      rw [List.map_cons, List.foldl_cons, List.foldl_cons, ← mul_add, ih]
  have h := hfold (-0)
  rwa [mul_neg, mul_zero] at h

theorem cumulative_map_mul (hf : f ≠ 0) : cumulative (ws.map (f * ·)) = cumulative ws := by
  have hgo (total reached : K) (l : List K) :
      cumulative.go (f * total) reached (l.map (f * ·)) = cumulative.go total reached l := by
    induction l generalizing reached with
    | nil => rfl
    | cons w ws ih => simp only [List.map_cons, cumulative.go, mul_div_mul_left _ _ hf, ih]
  rw [cumulative, sum_map_mul, hgo, cumulative]

theorem roulette_map_mul (hf : f ≠ 0) : roulette (ws.map (f * ·)) = roulette ws := by
  funext s
  rw [roulette, cumulative_map_mul hf, roulette]

theorem heaviest_map_mul [IsStrictOrderedRing K] (hf : 0 < f) :
    heaviest (ws.map (f * ·)) = heaviest ws := by
  rw [heaviest, leaderIndex_map, heaviest]
  simp only [mul_lt_mul_iff_right₀ hf]

theorem select_map_mul [Source γ K] (hf : f ≠ 0) (amount : Nat) :
    (select (ws.map (f * ·)) amount : Draw γ (List Nat)) = select ws amount := by
  simp [select, cumulative_map_mul hf]

end Wheel

namespace Walk

variable {w : Walk K}

@[simp] theorem placed_scale (n start : Nat) : (placed n start).scale f = placed n start := by
  simp [placed, scale]

@[simp] theorem idle_scale : (idle : Walk K).scale f = idle := by simp [idle, scale]

theorem advance_scale (position : Nat) :
    (w.scale f).advance (d.scale f) position = scale f <$> w.advance d position := by
  simp [advance, scale, current, mul_add]

theorem close_scale : (w.scale f).close (d.scale f) = scale f <$> w.close d := by
  simp [close, scale, current, mul_add]

theorem advanceNearest_scale [IsStrictOrderedRing K] (hf : 0 < f) (w : Walk K) :
    (w.scale f).advanceNearest (d.scale f) = scale f <$> w.advanceNearest d := by
  have hsteps (here : Nat) : w.unvisited.mapM ((d.scale f).distance here) =
      List.map (f * ·) <$> w.unvisited.mapM (d.distance here) :=
    mapM_comm _ fun _ _ => rfl
  have hnearest (steps : List K) : leaderIndex (fun a b => a < b) (steps.map (f * ·)) =
      leaderIndex (fun a b => a < b) steps := by
    rw [leaderIndex_map]
    simp only [mul_lt_mul_iff_right₀ hf]
  calc (w.scale f).advanceNearest (d.scale f)
      = w.current >>= fun here => w.unvisited.mapM ((d.scale f).distance here) >>= fun steps =>
          (w.scale f).advance (d.scale f) (leaderIndex (fun a b => a < b) steps) := rfl
    _ = scale f <$> w.advanceNearest d := by
      simp [hsteps, hnearest, advance_scale, advanceNearest]

theorem nearestFrom_scale [IsStrictOrderedRing K] (hf : 0 < f) (start : Nat) :
    nearestFrom (d.scale f) start = scale f <$> nearestFrom d start := by
  have hwalk := iterate_comm (advanceNearest_scale (d := d) hf) (d.cities - 1)
    (placed d.cities start)
  rw [placed_scale] at hwalk
  simp only [nearestFrom, Distances.cities_scale, hwalk]
  split
  · simp [close_scale]
  · rfl

theorem nearest_scale [IsStrictOrderedRing K] [Source γ K] (hf : 0 < f) :
    (nearest (d.scale f) : Draw γ (Walk K)) = scale f <$> nearest d := by
  simp [nearest, nearestFrom_scale hf]

end Walk

namespace Tour

theorem closedLength_scale (tour : List Nat) :
    closedLength (d.scale f) tour = (f * ·) <$> closedLength d tour := by
  have hsteps : (legs tour).mapM (fun leg => (f * ·) <$> d.distance leg.1 leg.2) =
      List.map (f * ·) <$> (legs tour).mapM fun leg => d.distance leg.1 leg.2 :=
    mapM_comm _ fun _ _ => rfl
  simp [closedLength, hsteps, Wheel.sum_map_mul]

theorem cyclicLength_scale (cities : List Nat) :
    cyclicLength (d.scale f) cities = (f * ·) <$> cyclicLength d cities := by
  simp only [cyclicLength]
  split
  · simp [closedLength_scale, mul_add]
  · exact congrArg Except.ok (mul_zero f).symm

end Tour

namespace Distances

theorem Sound.scale [IsStrictOrderedRing K] (h : d.Sound) (hf : 0 < f) : (d.scale f).Sound where
  two_le := h.two_le
  edge i hi j hj hij := (h.edge i hi j hj hij).map fun _ hx => ⟨mul_pos hf hx.1, rfl⟩

theorem visibility_scale [Power K] [MultiplicativePowers K] (h : d.Sound) (hf : 0 < f) (beta : K) :
    (d.scale f).visibility beta =
      Grid.map (Power.power f (-beta) * ·) <$> d.visibility beta := by
  refine Grid.build_comm fun i hi j hj => ?_
  split
  case isTrue => exact congrArg Except.ok (mul_zero _).symm
  case isFalse hij =>
    obtain ⟨x, hx, hpos, -⟩ := h.edge i hi j hj hij
    have hpower := MultiplicativePowers.power_mul f x (-beta) hf hpos
    rw [distance_scale, hx]
    exact congrArg Except.ok hpower

end Distances

namespace Progress

variable {p : Progress σ K}

theorem offer_scale [IsStrictOrderedRing K] (hf : 0 < f) (candidate : σ) (quality : K) :
    (p.scale f).offer (fun a b => a < b) candidate (f * quality) =
      (p.offer (fun a b => a < b) candidate quality).scale f := by
  simp only [offer, Best.offer, scale, Best.scale, mul_lt_mul_iff_right₀ hf]
  split
  · rfl
  · rfl

theorem advance_scale : (p.scale f).advance = p.advance.scale f := by
  simp [advance, scale, Best.scale, Event.scale]

theorem finish_scale : (p.scale f).finish = p.finish.scale f := by
  simp [finish, scale, Best.scale, Event.scale]

theorem abort_scale (e : Error K) : (p.scale f).abort e = (p.abort e).scale f := by
  simp [abort, scale, Event.scale]

end Progress

end Exact
end PopulationSearch
