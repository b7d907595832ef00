import Mathlib.Order.Bounds.Defs
import PopulationSearch.Proofs.AntSystem
import PopulationSearch.Proofs.DoubleLaws

/-! What the two choice rules choose. Weights may be zero, infinite or no numbers at all. -/

namespace PopulationSearch

variable {γ α : Type} [Scalar α]

/-- An ant in `here` that has cities to choose from, in ascending order. -/
structure Walk.Poised (n here : Nat) (ant : Walk α) : Prop where
  current : ant.tour.getLast? = some here
  here_lt : here < n
  ahead : ant.unvisited ≠ []
  ahead_lt : ∀ city ∈ ant.unvisited, city < n
  ascending : ant.unvisited.Pairwise (· < ·)

theorem Walk.Open.poised {d : Distances α} {ant : Walk α} {here : Nat} (h : ant.Open d)
    (hhere : ant.tour.getLast? = some here) (hahead : ant.unvisited ≠ []) :
    ant.Poised d.cities here where
  current := hhere
  here_lt := h.lt_of_mem_tour (List.mem_of_getLast? hhere)
  ahead := hahead
  ahead_lt := fun _ => h.lt_of_mem_unvisited
  ascending := h.ascending

namespace Colony

def edgeWeight (raise : α → α) (p : Pheromone α) (v : Grid α) (here there : Nat) :
    Except Fault α := do
  let level ← p.get here there
  let visible ← v.get here there
  return raise level * visible

structure Heaviest (weight : Nat → α) (cities : List Nat) (city : Nat) : Prop where
  mem : city ∈ cities
  unexceeded : ∀ other ∈ cities, ¬ weight city < weight other
  first : ∀ other ∈ cities, other < city → weight other < weight city

variable {n here : Nat} {p : Pheromone α} {v : Grid α} {ant : Walk α}

theorem exists_weight (hp : p.Square n) (hv : v.Square n) (hant : ant.Poised n here)
    (raise : α → α) : ∃ weight : Nat → α,
      (∀ city ∈ ant.unvisited, edgeWeight raise p v here city = .ok (weight city)) ∧
      ant.unvisited.mapM (edgeWeight raise p v here) = .ok (ant.unvisited.map weight) := by
  have : Nonempty α := ⟨0⟩
  obtain ⟨weight, hweight, hall⟩ := Yields.exists_map (f := edgeWeight raise p v here)
    (R := fun _ _ => True) (l := ant.unvisited) fun city hcity => by
      have hlt := hant.ahead_lt city hcity
      refine (hp.get_yields hant.here_lt hlt).bind fun level _ => ?_
      exact (hv.get_yields hant.here_lt hlt).bind fun visible _ => .pure trivial
  exact ⟨weight, fun city hcity => (hweight city hcity).1, hall⟩

theorem exists_heaviest [OrderedScalar α] (hant : ant.Poised n here) {weight : Nat → α}
    (hnumber : ∀ city ∈ ant.unvisited, Scalar.isNaN (weight city) = false) :
    ∃ city, ant.unvisited[Wheel.heaviest (ant.unvisited.map weight)]? = some city ∧
      Heaviest weight ant.unvisited city := by
  obtain ⟨city, hcity, hleader, hall⟩ :=
    (Direction.ranks .maximize).exists_leader hant.ahead hant.ascending hnumber
  refine ⟨city, hleader, hcity, fun other hother => ?_, fun other hother hlower => ?_⟩
  · simpa [Direction.isFitter] using (hall other hother).1
  · simpa [Direction.isFitter] using (hall other hother).2 hlower

section Exploiting

variable [Source γ α]

/-- What comes of a choice between the heaviest city and one drawn by weight. -/
structure Exploited (weight : Nat → α) (ahead : List Nat) (q0 : α) (g : γ) (position : Nat)
    (g' : γ) : Prop where
  lt : position < ahead.length
  heaviest : (Source.unit g).1 ≤ q0 ∨ Scalar.isFinite (Scalar.sum (ahead.map weight)) = false →
    (∀ city ∈ ahead, Scalar.isNaN (weight city) = false) →
    ∃ city, ahead[position]? = some city ∧ Heaviest weight ahead city
  drawn : ¬ (Source.unit g).1 ≤ q0 → Scalar.isFinite (Scalar.sum (ahead.map weight)) = true →
    position = Wheel.roulette (ahead.map weight) (Source.unit (Source.unit g).2).1 ∧
    Wheel.StopsAt (ahead.map weight) (Source.unit (Source.unit g).2).1 position
  one_draw : (Source.unit g).1 ≤ q0 → g' = (Source.unit g).2
  two_draws : ¬ (Source.unit g).1 ≤ q0 → g' = (Source.unit (Source.unit g).2).2

def weighInto (buffer : Array α) (p : Pheromone α) (v : Grid α) (ant : Walk α) :
    Except Fault (Array α) := do
  let here ← ant.current
  ant.unvisited.foldlM (fun ws there => do
    let weight ← edgeWeight id p v here there
    return ws.push weight) (buffer.take 0)

/-- The rule as it runs over a buffer that is handed on from one choice to the next. -/
def chooseOver (buffer : Array α) (p : Pheromone α) (v : Grid α) (q0 : α) (ant : Walk α) :
    Draw γ (Nat × Array α) := do
  let ws ← weighInto buffer p v ant
  let q ← Draw.unit
  if q ≤ q0 then return (Wheel.heaviest ws.toList, ws)
  let s ← Draw.unit
  if Scalar.isFinite (Scalar.sum ws.toList) then return (Wheel.roulette ws.toList s, ws)
  return (Wheel.heaviest ws.toList, ws)

omit [Source γ α] in
theorem weights_eq_ok (hant : ant.Poised n here) {ws : List α}
    (h : ant.unvisited.mapM (edgeWeight id p v here) = .ok ws) : weights p v ant = .ok ws := by
  rw [weights, Walk.current, hant.current]
  exact h

omit [Source γ α] in
theorem weighInto_eq_ok (hant : ant.Poised n here) {weight : Nat → α}
    (h : ∀ city ∈ ant.unvisited, edgeWeight id p v here city = .ok (weight city))
    (buffer : Array α) :
    weighInto buffer p v ant = .ok (ant.unvisited.map weight).toArray := by
  have hgo (l : List Nat) (hl : l ⊆ ant.unvisited) (ws : Array α) :
      l.foldlM (fun ws there => do
        let weight ← edgeWeight id p v here there
        return ws.push weight) ws = Except.ok (ε := Fault) (ws ++ (l.map weight).toArray) := by
    induction l generalizing ws with
    | nil => simp [pure, Except.pure]
    | cons city l ih =>
      obtain ⟨hcity, hl⟩ := List.cons_subset.mp hl
      rw [List.foldlM_cons, h city hcity]
      refine (ih hl (ws.push (weight city))).trans ?_
      simp
  rw [weighInto, Walk.current, hant.current]
  refine (hgo ant.unvisited (List.Subset.refl _) (buffer.take 0)).trans ?_
  simp

theorem chooseOver_run {buffer : Array α} {q0 : α} {ws : List α} (hws : weights p v ant = .ok ws)
    (hbuffer : weighInto buffer p v ant = .ok ws.toArray) (g : γ) :
    (chooseOver buffer p v q0 ant).run g =
      (fun r => ((r.1, ws.toArray), r.2)) <$> (chooseOrExploit p v q0 ant).run g := by
  rw [chooseOrExploit_run hws]
  simp only [chooseOver, hbuffer, StateT.run_bind, Draw.run_unit, Draw.run_lift_ok, ok_bind]
  split
  · rfl
  simp only [StateT.run_bind, Draw.run_unit, ok_bind]
  split
  · rfl
  · rfl

theorem exploited_of_run [OrderedScalar α] (hant : ant.Poised n here) {weight : Nat → α}
    (hws : weights p v ant = .ok (ant.unvisited.map weight)) (q0 : α) (g : γ) :
    ∃ position g', (chooseOrExploit p v q0 ant).run g = .ok (position, g') ∧
      Exploited weight ant.unvisited q0 g position g' := by
  have hpos : 0 < (ant.unvisited.map weight).length := by
    rw [List.length_map]
    exact List.length_pos_of_ne_nil hant.ahead
  have hheaviest := Wheel.heaviest_lt hpos
  have hstop := Wheel.roulette_stopsAt (Source.unit (Source.unit g).2).1 hpos
  have hlt := hstop.lt
  rw [List.length_map] at hheaviest hlt
  have hrun := chooseOrExploit_run hws q0 g
  by_cases hq : (Source.unit g).1 ≤ q0
  · rw [if_pos hq] at hrun
    exact ⟨_, _, hrun, hheaviest, fun _ => exists_heaviest hant, fun h => absurd hq h,
      fun _ => rfl, fun h => absurd hq h⟩
  rw [if_neg hq] at hrun
  by_cases hsum : Scalar.isFinite (Scalar.sum (ant.unvisited.map weight)) = true
  · rw [if_pos hsum] at hrun
    refine ⟨_, _, hrun, hlt, fun h => ?_, fun _ _ => ⟨rfl, hstop⟩, fun h => absurd h hq,
      fun _ => rfl⟩
    rcases h with h | h
    · exact absurd h hq
    · exact absurd hsum (by simp [h])
  · rw [if_neg hsum] at hrun
    exact ⟨_, _, hrun, hheaviest, fun _ => exists_heaviest hant, fun _ h => absurd h hsum,
      fun h => absurd h hq, fun _ => rfl⟩

/-- The rule that may exploit always has an answer, and what the buffer held makes no difference. -/
theorem chooseOrExploit_lawful [OrderedScalar α] (hp : p.Square n) (hv : v.Square n)
    (hant : ant.Poised n here) : ∃ weight : Nat → α,
      (∀ city ∈ ant.unvisited, edgeWeight id p v here city = .ok (weight city)) ∧
      ∀ (q0 : α) (g : γ), ∃ position g',
        (chooseOrExploit p v q0 ant).run g = .ok (position, g') ∧
        Exploited weight ant.unvisited q0 g position g' ∧
        ∀ buffer : Array α, (chooseOver buffer p v q0 ant).run g =
          .ok ((position, (ant.unvisited.map weight).toArray), g') := by
  obtain ⟨weight, hweight, hall⟩ := exists_weight hp hv hant id
  have hws := weights_eq_ok hant hall
  refine ⟨weight, hweight, fun q0 g => ?_⟩
  obtain ⟨position, g', hrun, hexploited⟩ := exploited_of_run hant hws q0 g
  refine ⟨position, g', hrun, hexploited, fun buffer => ?_⟩
  rw [chooseOver_run hws (weighInto_eq_ok hant hweight buffer), hrun]
  rfl

end Exploiting

def threeAhead : Walk Float := Walk.placed 4 0

theorem threeAhead_poised : threeAhead.Poised 4 0 := by
  have hopen : threeAhead.Open fourCities := Walk.placed_open (by decide)
  exact hopen.poised rfl (by decide)

def plainSight : Grid Float := Grid.uniform 4 1

def heavyTrail : Pheromone Float :=
  ⟨4, #[1, 1, 1e308, 1e308, 1, 1, 1, 1, 1, 1, 1, 1, 1, 1, 1, 1]⟩

def goneTrail : Pheromone Float := Grid.uniform 4 0

theorem chooseOrExploit_lawful_threeAhead :
    threeAhead.Poised 4 0 ∧ heavyTrail.Square 4 ∧ goneTrail.Square 4 ∧ plainSight.Square 4 ∧
    (∃ weight g', (chooseOrExploit heavyTrail plainSight 0 threeAhead).run (Generator.ofSeed 7) =
      .ok (1, g') ∧ Exploited weight [1, 2, 3] 0 (Generator.ofSeed 7) 1 g') ∧
    ∃ weight g', (chooseOrExploit goneTrail plainSight 0 threeAhead).run (Generator.ofSeed 7) =
      .ok (2, g') ∧ Exploited weight [1, 2, 3] 0 (Generator.ofSeed 7) 2 g' := by
  have hsight : plainSight.Square 4 := Grid.square_uniform 4 1
  have hheavy : heavyTrail.Square 4 := ⟨rfl, rfl⟩
  have hgone : goneTrail.Square 4 := Grid.square_uniform 4 0
  have htakes {p : Pheromone Float} (hp : p.Square 4) {position : Nat}
      (hposition : Yields ((chooseOrExploit p plainSight 0 threeAhead).run (Generator.ofSeed 7))
        fun r => r.1 = position) :
      ∃ weight g', (chooseOrExploit p plainSight 0 threeAhead).run (Generator.ofSeed 7) =
        .ok (position, g') ∧ Exploited weight [1, 2, 3] 0 (Generator.ofSeed 7) position g' := by
    obtain ⟨weight, -, hall⟩ :=
      chooseOrExploit_lawful (γ := Generator) hp hsight threeAhead_poised
    obtain ⟨position', g', hrun, hexploited, -⟩ := hall 0 (Generator.ofSeed 7)
    obtain rfl : position' = position := hposition.of_eq hrun
    exact ⟨weight, g', hrun, hexploited⟩
  exact ⟨threeAhead_poised, hheavy, hgone, hsight, htakes hheavy (by decide +kernel),
    htakes hgone (by decide +kernel)⟩

def Unusable (w : α) : Prop := (w == 0) = true ∨ Scalar.isFinite w = false

instance (w : α) : Decidable (Unusable w) := inferInstanceAs (Decidable (_ ∨ _))

def weightError (here there : Nat) (w : α) : Error α :=
  if w == 0 then .zeroWeight here there else .nonFiniteWeight here there

/-- What comes of a choice that needs a wheel. -/
structure Decided [Source γ α] (weight : Nat → α) (ahead : List Nat) (here : Nat) (g : γ)
    (outcome : Except (Failure α) (Nat × γ)) : Prop where
  unusable : (∃ city ∈ ahead, Unusable (weight city)) → ∃ city,
    IsLeast {city | city ∈ ahead ∧ Unusable (weight city)} city ∧
    outcome = .error (.invalid (weightError here city (weight city)))
  overflowing : (∀ city ∈ ahead, ¬ Unusable (weight city)) →
    Scalar.isFinite (Scalar.sum (ahead.map weight)) = false → ∃ city,
    Heaviest weight ahead city ∧ outcome = .error (.invalid (.nonFiniteWeight here city))
  drawn : (∀ city ∈ ahead, ¬ Unusable (weight city)) →
    Scalar.isFinite (Scalar.sum (ahead.map weight)) = true →
    outcome = .ok (Wheel.roulette (ahead.map weight) (Source.unit g).1, (Source.unit g).2) ∧
    Wheel.roulette (ahead.map weight) (Source.unit g).1 < ahead.length

theorem Decided.refused_iff [Source γ α] {weight : Nat → α} {ahead : List Nat} {g : γ}
    {outcome : Except (Failure α) (Nat × γ)} (h : Decided weight ahead here g outcome) :
    (∃ failure, outcome = .error failure) ↔ (∃ city ∈ ahead, Unusable (weight city)) ∨
      (∀ city ∈ ahead, ¬ Unusable (weight city)) ∧
        Scalar.isFinite (Scalar.sum (ahead.map weight)) = false := by
  constructor
  · rintro ⟨failure, hfailure⟩
    by_cases hbad : ∃ city ∈ ahead, Unusable (weight city)
    · exact .inl hbad
    have hgood : ∀ city ∈ ahead, ¬ Unusable (weight city) := by simpa using hbad
    refine .inr ⟨hgood, ?_⟩
    by_contra hsum
    rw [Bool.not_eq_false] at hsum
    rw [(h.drawn hgood hsum).1] at hfailure
    cases hfailure
  · rintro (hbad | ⟨hgood, hsum⟩)
    · obtain ⟨city, -, houtcome⟩ := h.unusable hbad
      exact ⟨_, houtcome⟩
    · obtain ⟨city, -, houtcome⟩ := h.overflowing hgood hsum
      exact ⟨_, houtcome⟩

section Refusing

variable [Power α] {alpha : α} {weight : Nat → α}

theorem wheelWeight_eq {there : Nat} {w : α}
    (h : edgeWeight (Power.power · alpha) p v here there = .ok w) :
    wheelWeight p v alpha here there =
      if Unusable w then .error (.invalid (weightError here there w)) else .ok w := by
  obtain ⟨level, hlevel, h⟩ := bind_eq_ok.mp h
  obtain ⟨visible, hvisible, h⟩ := bind_eq_ok.mp h
  cases h
  simp only [wheelWeight, hlevel, hvisible, liftM_ok, ok_bind]
  generalize Power.power level alpha * visible = w
  by_cases hzero : (w == 0) = true
  · have hbad : Unusable w := .inl hzero
    rw [if_pos hzero, if_pos hbad, weightError, if_pos hzero]
    rfl
  by_cases hfinite : Scalar.isFinite w = true
  · have hgood : ¬ Unusable w := by simp [Unusable, hzero, hfinite]
    rw [if_neg hzero, if_pos hfinite, if_neg hgood]
    rfl
  · have hbad : Unusable w := .inr (Bool.eq_false_of_not_eq_true hfinite)
    rw [if_neg hzero, if_neg hfinite, if_pos hbad, weightError, if_neg hzero]
    rfl

theorem wheelWeights_eq (hant : ant.Poised n here) : wheelWeights p v alpha ant =
    ant.unvisited.mapM (wheelWeight p v alpha here) >>= fun ws => do
      unless Scalar.isFinite (Scalar.sum ws) do
        let there ← demand ant.unvisited[Wheel.heaviest ws]?
        throw (.invalid (.nonFiniteWeight here there))
      return ws := by
  rw [wheelWeights, Walk.current, hant.current]
  rfl

theorem wheelWeights_of_unusable (hant : ant.Poised n here)
    (hweight : ∀ city ∈ ant.unvisited,
      edgeWeight (Power.power · alpha) p v here city = .ok (weight city))
    (hbad : ∃ city ∈ ant.unvisited, Unusable (weight city)) : ∃ city,
    IsLeast {city | city ∈ ant.unvisited ∧ Unusable (weight city)} city ∧
    wheelWeights p v alpha ant =
      .error (.invalid (weightError here city (weight city))) := by
  have hascending : ant.unvisited.Pairwise fun b c => id b < id c := hant.ascending
  have hmeets := Meets.mapM_least (A := fun city => ¬ Unusable (weight city))
    (S := fun city e => e = Failure.invalid (weightError here city (weight city)))
    (f := wheelWeight p v alpha here) hascending fun city hcity => by
      rw [wheelWeight_eq (hweight city hcity)]
      split
      case isTrue hcity => exact ⟨not_not_intro hcity, rfl⟩
      case isFalse hcity => exact hcity
  rw [wheelWeights_eq hant]
  cases hall : ant.unvisited.mapM (wheelWeight p v alpha here) with
  | ok ws =>
    rw [hall] at hmeets
    obtain ⟨city, hcity, hunusable⟩ := hbad
    exact absurd hunusable (hmeets city hcity)
  | error failure =>
    rw [hall] at hmeets
    obtain ⟨city, hcity, hunusable, hleast, rfl⟩ := hmeets
    refine ⟨city, ⟨⟨hcity, not_not.mp hunusable⟩, ?_⟩, rfl⟩
    rintro other ⟨hother, hbad⟩
    exact hleast other hother (not_not_intro hbad)

theorem wheelWeights_of_usable (hant : ant.Poised n here)
    (hweight : ∀ city ∈ ant.unvisited,
      edgeWeight (Power.power · alpha) p v here city = .ok (weight city))
    (hgood : ∀ city ∈ ant.unvisited, ¬ Unusable (weight city)) {heaviest : Nat}
    (hheaviest : ant.unvisited[Wheel.heaviest (ant.unvisited.map weight)]? = some heaviest) :
    wheelWeights p v alpha ant =
      if Scalar.isFinite (Scalar.sum (ant.unvisited.map weight)) then
        .ok (ant.unvisited.map weight)
      else .error (.invalid (.nonFiniteWeight here heaviest)) := by
  have hall : ant.unvisited.mapM (wheelWeight p v alpha here) = .ok (ant.unvisited.map weight) := by
    apply mapM_eq_ok_of_forall₂
    rw [List.forall₂_map_right_iff, List.forall₂_same]
    intro city hcity
    rw [wheelWeight_eq (hweight city hcity), if_neg (hgood city hcity)]
  rw [wheelWeights_eq hant, hall, ok_bind, hheaviest]
  split
  · rfl
  · rfl

omit [Power α] in
theorem exists_heaviest_of_usable [FiniteArithmetic α] (hant : ant.Poised n here)
    (hgood : ∀ city ∈ ant.unvisited, ¬ Unusable (weight city)) :
    ∃ city, ant.unvisited[Wheel.heaviest (ant.unvisited.map weight)]? = some city ∧
      Heaviest weight ant.unvisited city := by
  refine exists_heaviest hant fun city hcity => FiniteArithmetic.isNaN_of_isFinite _ ?_
  by_contra hfinite
  exact hgood city hcity (.inr (Bool.eq_false_of_not_eq_true hfinite))

theorem decided_of_weights [FiniteArithmetic α] [Source γ α] (hant : ant.Poised n here)
    (hweight : ∀ city ∈ ant.unvisited,
      edgeWeight (Power.power · alpha) p v here city = .ok (weight city)) (g : γ) :
    Decided weight ant.unvisited here g (choose p v alpha ant g) := by
  constructor
  case unusable =>
    intro hbad
    obtain ⟨city, hleast, hws⟩ := wheelWeights_of_unusable hant hweight hbad
    refine ⟨city, hleast, ?_⟩
    rw [choose_eq_map, hws]
    rfl
  case overflowing =>
    intro hgood hsum
    obtain ⟨city, hcity, hheaviest⟩ := exists_heaviest_of_usable hant hgood
    refine ⟨city, hheaviest, ?_⟩
    rw [choose_eq_map, wheelWeights_of_usable hant hweight hgood hcity, hsum]
    rfl
  case drawn =>
    intro hgood hsum
    obtain ⟨city, hcity, -⟩ := exists_heaviest_of_usable hant hgood
    constructor
    · rw [choose_eq_map, wheelWeights_of_usable hant hweight hgood hcity, hsum]
      rfl
    · have hpos : 0 < (ant.unvisited.map weight).length := by
        rw [List.length_map]
        exact List.length_pos_of_ne_nil hant.ahead
      simpa using Wheel.roulette_lt (Source.unit g).1 hpos

theorem performAll_of_refused [Source γ α] {c : AntSystem γ α} {k : Nat} {e : Error α}
    (hk : c.ants[k]? = some ant)
    (h : choose c.pheromone c.visibility c.config.alpha ant c.source = .error (.invalid e))
    (acts : List AntSystem.Act) : AntSystem.performAll (.move k :: acts) c = .ok (c, some e) := by
  have hmove : AntSystem.perform c (.move k) = .error (.invalid e) := by
    rw [AntSystem.perform, AntSystem.move, hk]
    simp only [demand, liftM_ok, ok_bind, h]
    rfl
  rw [AntSystem.performAll, hmove]

/-- The rule that needs a wheel is refused exactly if the weights make none, and names the edge that
is to blame. -/
theorem choose_decided [FiniteArithmetic α] [Source γ α] (hp : p.Square n) (hv : v.Square n)
    (hant : ant.Poised n here) (alpha : α) : ∃ weight : Nat → α,
      (∀ city ∈ ant.unvisited,
        edgeWeight (Power.power · alpha) p v here city = .ok (weight city)) ∧
      (∀ g : γ, Decided weight ant.unvisited here g (choose p v alpha ant g) ∧
        ((∃ failure, choose p v alpha ant g = .error failure) ↔
          (∃ city ∈ ant.unvisited, Unusable (weight city)) ∨
            (∀ city ∈ ant.unvisited, ¬ Unusable (weight city)) ∧
              Scalar.isFinite (Scalar.sum (ant.unvisited.map weight)) = false)) ∧
      ∀ (c : AntSystem γ α) (k : Nat) (e : Error α) (acts : List AntSystem.Act),
        c.ants[k]? = some ant → c.pheromone = p → c.visibility = v → c.config.alpha = alpha →
        choose p v alpha ant c.source = .error (.invalid e) →
        AntSystem.performAll (.move k :: acts) c = .ok (c, some e) := by
  obtain ⟨weight, hweight, -⟩ := exists_weight hp hv hant (Power.power · alpha)
  refine ⟨weight, hweight, fun g => ?_, ?_⟩
  · have hdecided := decided_of_weights hant hweight g
    exact ⟨hdecided, hdecided.refused_iff⟩
  · rintro c k e acts hk rfl rfl rfl h
    exact performAll_of_refused hk h acts

end Refusing

def brokenTrail : Pheromone Float :=
  ⟨4, #[1, 1, 0 / 0, 0, 1, 1, 1, 1, 1, 1, 1, 1, 1, 1, 1, 1]⟩

def loneColony (p : Pheromone Float) : AntSystem Generator Float where
  config := ⟨1, 1, 1, 1, 0.5, 7⟩
  distances := DistanceTable.toDistances ⟨plainSight⟩
  visibility := plainSight
  initialTrail := 1
  pheromone := p
  ants := [threeAhead]
  source := Generator.ofSeed 7
  progress := Progress.start ⟨[], 0⟩ (.trailSeeded 1 1)

theorem choose_decided_threeAhead :
    letI := unitPower
    threeAhead.Poised 4 0 ∧ heavyTrail.Square 4 ∧ brokenTrail.Square 4 ∧ plainSight.Square 4 ∧
    (∃ weight, Decided weight [1, 2, 3] 0 (Generator.ofSeed 7)
      (choose heavyTrail plainSight 1 threeAhead (Generator.ofSeed 7))) ∧
    AntSystem.performAll [.move 0] (loneColony heavyTrail) =
      .ok (loneColony heavyTrail, some (.nonFiniteWeight 0 2)) ∧
    (∃ weight, Decided weight [1, 2, 3] 0 (Generator.ofSeed 7)
      (choose brokenTrail plainSight 1 threeAhead (Generator.ofSeed 7))) ∧
    AntSystem.performAll [.move 0] (loneColony brokenTrail) =
      .ok (loneColony brokenTrail, some (.nonFiniteWeight 0 2)) := by
  let := unitPower
  have hsight : plainSight.Square 4 := Grid.square_uniform 4 1
  have hheavy : heavyTrail.Square 4 := ⟨rfl, rfl⟩
  have hbroken : brokenTrail.Square 4 := ⟨rfl, rfl⟩
  have hrefusal (outcome : Except (Failure Float) (Nat × Generator))
      (h : outcome matches .error (.invalid (.nonFiniteWeight 0 2))) :
      outcome = .error (.invalid (.nonFiniteWeight 0 2)) := by
    split at h
    · rfl
    · cases h
  obtain ⟨heavy, -, hheavyDecided, hheavyKept⟩ :=
    choose_decided (γ := Generator) hheavy hsight threeAhead_poised 1
  obtain ⟨broken, -, hbrokenDecided, hbrokenKept⟩ :=
    choose_decided (γ := Generator) hbroken hsight threeAhead_poised 1
  refine ⟨threeAhead_poised, hheavy, hbroken, hsight, ⟨heavy, (hheavyDecided _).1⟩, ?_,
    ⟨broken, (hbrokenDecided _).1⟩, ?_⟩
  · exact hheavyKept (loneColony heavyTrail) 0 _ [] rfl rfl rfl rfl
      (hrefusal _ (by decide +kernel))
  · exact hbrokenKept (loneColony brokenTrail) 0 _ [] rfl rfl rfl rfl
      (hrefusal _ (by decide +kernel))

end Colony
end PopulationSearch
