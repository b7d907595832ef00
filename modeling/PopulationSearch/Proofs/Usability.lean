import PopulationSearch.Proofs.AntSystem
import PopulationSearch.Proofs.ColonySystem
import PopulationSearch.Proofs.GeneticSearch
import PopulationSearch.Proofs.Lengths
import PopulationSearch.Proofs.Reciprocals
import PopulationSearch.Proofs.TourForms

/-! What positive finite distances guarantee: lengths are positive, but they may overflow, or be so
small that their reciprocals do. -/

namespace PopulationSearch

open Binary64

theorem zero_add_eq {a x : Float} (ha : a.isFinite = true) (hzero : value a = 0) (hx : 0 < x)
    (hfinite : x.isFinite = true) : a + x = x := by
  obtain ⟨s, hs⟩ := exists_zero_of_value_eq ha hzero
  rcases zero_or_finite hfinite with ⟨hnone, -⟩ | ⟨t, m, e, hm, -, -, hunpack⟩
  · exact absurd hnone ((value_pos hfinite).mp hx).ne'
  · have hsum : a + x = .ofModel (.pack (.add .binary64 a.toModel.unpack x.toModel.unpack)) := rfl
    rw [hs, hunpack] at hsum
    rw [hsum, ← ofModel_pack_unpack x, hunpack]
    rfl

variable {d : Distances Float} {tour : List Nat} {length : Float}

theorem Tour.IsClosed.steps_yields (hd : d.Sound) (h : IsClosed d.cities tour) :
    Yields ((legs tour).mapM fun leg => d.distance leg.1 leg.2) fun steps =>
      steps.length = d.cities ∧ ∀ step ∈ steps, 0 < step ∧ step.isFinite = true ∧
        ∃ leg, d.Spans leg ∧ d.distance leg.1 leg.2 = .ok step := by
  refine (Yields.mapM (R := fun leg step => 0 < step ∧ step.isFinite = true ∧
    ∃ leg, d.Spans leg ∧ d.distance leg.1 leg.2 = .ok step) (legs tour) fun leg hleg => ?_).mono ?_
  · have hspans := h.spans hd hleg
    obtain ⟨step, hstep, hpos, hfinite⟩ := hd.edge _ hspans.1 _ hspans.2.1 hspans.2.2
    exact ⟨step, hstep, hpos, hfinite, leg, hspans, hstep⟩
  · intro steps hsteps
    refine ⟨?_, forall_mem_of_forall₂ hsteps fun _ _ hstep => hstep⟩
    rw [← hsteps.length_eq, length_legs, h.length_eq, Nat.add_sub_cancel]

theorem Tour.IsClosed.closedLength_yields (hd : d.Sound) (h : IsClosed d.cities tour) :
    Yields (closedLength d tour) fun length => 0 < length ∧ travelled d tour = .ok length := by
  obtain ⟨steps, hmap, hcount, hsteps⟩ := h.steps_yields hd
  have hfirst : Scalar.sum steps = steps.foldl (· + ·) 0 := by
    cases steps with
    | nil => exact absurd hcount.symm hd.cities_pos.ne'
    | cons step steps =>
      obtain ⟨hpos, hfinite, -⟩ := hsteps step (List.mem_cons_self ..)
      rw [Scalar.sum, List.foldl_cons, List.foldl_cons,
        zero_add_eq isFinite_neg_zero value_neg_zero hpos hfinite,
        zero_add_eq isFinite_zero value_zero hpos hfinite]
  have htravelled : travelled d tour = .ok (Scalar.sum steps) := by
    rw [travelled, hmap, hfirst]
    rfl
  refine ⟨Scalar.sum steps, ?_, h.zero_lt_travelled hd htravelled, htravelled⟩
  rw [closedLength, hmap]
  rfl

theorem Walk.Closed.closedLength_eq {walk : Walk Float} (hd : d.Sound) (h : walk.Closed d) :
    Tour.closedLength d walk.tour = .ok walk.length ∧ 0 < walk.length := by
  obtain ⟨length, hlength, hpos, htravelled⟩ := h.tour.closedLength_yields hd
  cases htravelled.symm.trans h.length_eq
  exact ⟨hlength, hpos⟩

def moderateLow : Float := Float.ofBits 0x07B0000000000000

def moderateHigh : Float := Float.ofBits 0x7830000000000000

theorem value_moderateLow : value moderateLow = 2 ^ (-900 : ℤ) := by
  have hunpack : moderateLow.toModel.unpack = signed .positive (2 ^ 52) (-952) := rfl
  rw [value_of_unpack_eq hunpack, apply_positive]
  exact two_pow_mul_two_zpow (by norm_num)

theorem value_moderateHigh : value moderateHigh = 2 ^ (900 : ℤ) := by
  have hunpack : moderateHigh.toModel.unpack = signed .positive (2 ^ 52) 848 := rfl
  rw [value_of_unpack_eq hunpack, apply_positive]
  exact two_pow_mul_two_zpow (by norm_num)

structure Distances.Moderate (d : Distances Float) : Prop where
  cities_lt : d.cities < 2 ^ 53
  edge : ∀ i < d.cities, ∀ j < d.cities, i ≠ j →
    Yields (d.distance i j) fun x => moderateLow ≤ x ∧ x ≤ moderateHigh

namespace Distances.Moderate

theorem budgeted (hm : d.Moderate) (hd : d.Sound) (h : Tour.IsClosed d.cities tour)
    (hlength : Tour.closedLength d tour = .ok length) :
    moderateLow ≤ length ∧ Budgeted d.cities 900 length := by
  obtain ⟨steps, hmap, hcount, hsteps⟩ := h.steps_yields hd
  have hsum : length = Scalar.sum steps := by
    rw [Tour.closedLength, hmap] at hlength
    exact (Except.ok.inj hlength).symm
  have hbounds : ∀ step ∈ steps, moderateLow ≤ step ∧ step ≤ moderateHigh := by
    intro step hstep
    obtain ⟨-, -, leg, hspans, hdistance⟩ := hsteps step hstep
    exact (hm.edge _ hspans.1 _ hspans.2.1 hspans.2.2).of_eq hdistance
  have hnonneg : ∀ step ∈ steps, 0 ≤ step := fun step hstep =>
    ComparableScalar.le_of_lt (hsteps step hstep).1
  have hbudgets : ∀ step ∈ steps, Budgeted 1 900 step := by
    intro step hstep
    have hfinite := (hsteps step hstep).2.1
    have hle := (hbounds step hstep).2
    rw [le_iff_value hfinite (by decide +kernel), value_moderateHigh] at hle
    refine ⟨hfinite, (zero_le_value hfinite).mp (hnonneg step hstep), ?_⟩
    rwa [Nat.cast_one, one_mul]
  have hlt := hm.cities_lt
  constructor
  · obtain ⟨step, hstep⟩ := List.exists_mem_of_length_pos (hcount ▸ hd.cities_pos)
    rw [hsum]
    exact ComparableScalar.le_trans (hbounds step hstep).1
      (le_foldl_add_of_mem NonnegativeSums.zero_le_neg_zero hnonneg hstep)
  · have hbudget := Budgeted.foldl_add hbudgets
      (budgeted_zero isFinite_neg_zero value_neg_zero 900) (by omega) (by norm_num) (by norm_num)
    rwa [Nat.zero_add, Nat.mul_one, hcount, ← Scalar.sum, ← hsum] at hbudget

theorem tame (hm : d.Moderate) (hd : d.Sound) (h : Tour.IsClosed d.cities tour)
    (hlength : Tour.closedLength d tour = .ok length) : Tame length := by
  obtain ⟨hlow, hbudget⟩ := hm.budgeted hd h hlength
  refine ⟨ComparableScalar.lt_of_lt_of_le ?_ hlow, hbudget.isFinite⟩
  decide +kernel

theorem tame_mul (hm : d.Moderate) (hd : d.Sound) (h : Tour.IsClosed d.cities tour)
    (hlength : Tour.closedLength d tour = .ok length) :
    Tame (Float.ofNat d.cities * length) := by
  obtain ⟨-, hbudget⟩ := hm.budgeted hd h hlength
  have htame := hm.tame hd h hlength
  have hsize : d.cities < UInt64.size := hm.cities_lt.trans (by norm_num)
  have hcount := isFinite_ofNat hsize
  have hpos : 0 < length := OrderedScalar.lt_trans _ _ _ (by decide +kernel) htame.floor_lt
  refine ⟨ComparableScalar.lt_of_lt_of_le htame.floor_lt
    (le_mul_of_one_le hcount (one_le_value_ofNat hd.cities_pos hsize) hpos), ?_⟩
  -- fewer than `2 ^ 53` cities, each of which adds at most `2 ^ 900`
  have hcities : (d.cities : ℚ) ≤ ((2 ^ 53 : ℕ) : ℚ) := Nat.cast_le.mpr hm.cities_lt.le
  have hnumber : value (Float.ofNat d.cities) ≤ 2 ^ (64 : ℤ) := value_ofNat_le hsize
  have hbound : value length ≤ 2 ^ (953 : ℤ) :=
    hbudget.le.trans ((mul_le_mul_of_nonneg_right hcities (two_zpow_pos 900).le).trans_eq
      (two_pow_mul_two_zpow (by norm_num)))
  have hcount0 : 0 ≤ value (Float.ofNat d.cities) :=
    zero_le_one.trans (one_le_value_ofNat hd.cities_pos hsize)
  have hproduct : value (Float.ofNat d.cities) * value length ≤
      ((2 ^ 46 : ℕ) : ℚ) * 2 ^ (971 : ℤ) := by
    have hpowers : ((2 ^ 46 : ℕ) : ℚ) * 2 ^ (971 : ℤ) = 2 ^ (64 : ℤ) * 2 ^ (953 : ℤ) :=
      (two_pow_mul_two_zpow rfl).trans (two_zpow_mul_two_zpow (by norm_num)).symm
    rw [hpowers]
    exact mul_le_mul hnumber hbound hbudget.zero_le (two_zpow_pos 64).le
  exact ((rounds_mul hcount hbudget.isFinite).budgeted
    (mul_nonneg hcount0 hbudget.zero_le) hproduct (by norm_num) (by norm_num) le_rfl).isFinite

theorem usable_div (hm : d.Moderate) (hd : d.Sound) (h : Tour.IsClosed d.cities tour)
    (hlength : Tour.closedLength d tour = .ok length) {n : Nat} (hn : 0 < n)
    (hsize : n < UInt64.size) : Usable (Float.ofNat n / length) := by
  obtain ⟨hlow, hbudget⟩ := hm.budgeted hd h hlength
  have hcount := isFinite_ofNat hsize
  have hone := one_le_value_ofNat hn hsize
  have hpos : 0 < length := ComparableScalar.lt_of_lt_of_le (by decide +kernel) hlow
  have hvalue := (value_pos hbudget.isFinite).mp hpos
  refine ⟨(zero_lt_div_iff hcount hone hpos).mpr hbudget.isFinite, ?_⟩
  rw [le_iff_value (by decide +kernel) hbudget.isFinite, value_moderateLow] at hlow
  have hquotient : value (Float.ofNat n) / value length ≤ ((1 : ℕ) : ℚ) * 2 ^ (964 : ℤ) := by
    rw [Nat.cast_one, one_mul, div_le_iff₀ hvalue]
    calc value (Float.ofNat n) ≤ 2 ^ (64 : ℤ) := value_ofNat_le hsize
      _ = 2 ^ (964 : ℤ) * 2 ^ (-900 : ℤ) := (two_zpow_mul_two_zpow (by norm_num)).symm
      _ ≤ 2 ^ (964 : ℤ) * value length := mul_le_mul_of_nonneg_left hlow (two_zpow_pos 964).le
  exact ((rounds_div hcount hbudget.isFinite hvalue.ne').budgeted
    (div_nonneg (zero_le_one.trans hone) hvalue.le) hquotient (by norm_num) (by norm_num)
    (by norm_num)).isFinite

end Distances.Moderate

variable {γ : Type} [Source γ Float]

def GeneticSearch.Reached (d : Distances Float) (s : GeneticSearch γ Float) : Prop :=
  ∃ config g s₀ calls k, start d config g = .ok s₀ ∧ after calls k s₀ = .ok s

/-- Lengths have usable reciprocals wherever a search takes them. -/
structure Distances.UsableThroughout (γ : Type) [Source γ Float] [Power Float]
    (d : Distances Float) : Prop where
  length : ∀ tour, Tour.IsClosed d.cities tour →
    ∃ length, Tour.closedLength d tour = .ok length ∧ length.isFinite = true ∧ Usable (1 / length)
  antTrail : ∀ (config : AntSystem.Config Float) (g : γ) c, config.numAnts < UInt64.size →
    AntSystem.start d config g = .ok c → Usable c.initialTrail
  colonyTrail : ∀ (config : ColonySystem.Config Float) (g : γ) c,
    ColonySystem.start d config g = .ok c → Usable c.initialTrail
  fitness : ∀ s : GeneticSearch γ Float, s.Reached d → ∀ c ∈ s.population, Usable c.fitness
  wheel : ∀ s : GeneticSearch γ Float, s.Reached d →
    ∀ stop ∈ Wheel.cumulative (s.population.map (·.fitness)), stop.isNaN = false

/-- Lengths are positive, and what a search makes of one is usable if the length is tame. -/
structure Distances.UsableWhereTame (γ : Type) [Source γ Float] [Power Float]
    (d : Distances Float) : Prop where
  length : ∀ tour, Tour.IsClosed d.cities tour → ∃ length, Tour.closedLength d tour = .ok length ∧
    0 < length ∧ (Usable (1 / length) ↔ Tame length)
  antTrail : ∀ (config : AntSystem.Config Float) (g : γ) c, config.numAnts < UInt64.size →
    AntSystem.start d config g = .ok c → ∃ tour length, Tour.IsClosed d.cities tour ∧
      Tour.closedLength d tour = .ok length ∧
      c.initialTrail = Float.ofNat config.numAnts / length ∧
      (0 < c.initialTrail ↔ length.isFinite = true) ∧
      (c.initialTrail.isFinite = true → reciprocalFloor < length)
  colonyTrail : ∀ (config : ColonySystem.Config Float) (g : γ) c, d.cities < UInt64.size →
    ColonySystem.start d config g = .ok c → ∃ tour length, Tour.IsClosed d.cities tour ∧
      Tour.closedLength d tour = .ok length ∧
      (Usable c.initialTrail ↔ Tame (Float.ofNat d.cities * length))
  fitness : ∀ s : GeneticSearch γ Float, s.Reached d → ∀ c ∈ s.population,
    Tour.closedLength d (Tour.close c.genes) = .ok c.tourLength ∧
      (Usable c.fitness ↔ Tame c.tourLength)
  wheel : ∀ s : GeneticSearch γ Float, s.Reached d →
    ((∀ stop ∈ Wheel.cumulative (s.population.map (·.fitness)), stop.isNaN = false) ↔
      (∀ c ∈ s.population, reciprocalFloor < c.tourLength) ∧
        ∃ c ∈ s.population, c.tourLength.isFinite = true)

section Searches

theorem Genetic.Chromosome.Evaluated.closedLength_eq {c : Genetic.Chromosome Float}
    (hd : d.Sound) (h : c.Evaluated d) : Tour.IsClosed d.cities (Tour.close c.genes) ∧
      Tour.closedLength d (Tour.close c.genes) = .ok c.tourLength ∧ 0 < c.tourLength := by
  have hclosed := Tour.isClosed_close hd.cities_pos h.perm
  have hne : c.genes ≠ [] := by
    apply List.ne_nil_of_length_pos
    rw [Tour.length_of_perm h.perm]
    exact hd.cities_pos
  have hlength : Tour.closedLength d (Tour.close c.genes) = .ok c.tourLength := by
    rw [← Tour.cyclicLength_eq_closedLength d hne, h.length_eq]
  exact ⟨hclosed, hlength, ((hclosed.closedLength_yields hd).of_eq hlength).1⟩

variable [BoundedIndex γ]

theorem GeneticSearch.Reached.evaluated [FaithfulShuffle γ] {s : GeneticSearch γ Float}
    (h : s.Reached d) : s.population ≠ [] ∧ ∀ c ∈ s.population, c.Evaluated d := by
  obtain ⟨config, g, s₀, calls, k, hstart, hafter⟩ := h
  obtain ⟨hs₀, rfl, -⟩ := start_sound hstart
  have hs := (after_yields hs₀ calls k).of_eq hafter
  refine ⟨List.ne_nil_of_length_pos ?_, hs.distances ▸ hs.sound.evaluated⟩
  rw [hs.sound.length_population]
  exact hs.sound.populated

theorem Distances.Sound.usableWhereTame [FaithfulShuffle γ] [Power Float] (hd : d.Sound) :
    d.UsableWhereTame γ := by
  have hfitness (s : GeneticSearch γ Float) (hs : s.Reached d) (c : Genetic.Chromosome Float)
      (hc : c ∈ s.population) : 0 < c.tourLength ∧ c.fitness = 1 / c.tourLength :=
    ⟨((hs.evaluated.2 c hc).closedLength_eq hd).2.2, (hs.evaluated.2 c hc).fitness_eq⟩
  constructor
  case length =>
    intro tour h
    obtain ⟨length, hlength, hpos, -⟩ := h.closedLength_yields hd
    exact ⟨length, hlength, hpos, usable_one_div_iff hpos⟩
  case antTrail =>
    intro config g c hsize hstart
    obtain ⟨hsound, -, hconfig, hants⟩ := AntSystem.start_sound hstart
    obtain ⟨walk, g', -, hseeded⟩ := AntSystem.start_seed hstart
    obtain ⟨hlength, hpos⟩ := hseeded.closed.closedLength_eq hd
    have hone : 1 ≤ value (Float.ofNat config.numAnts) :=
      one_le_value_ofNat (hants ▸ List.length_pos_of_ne_nil hsound.manned) hsize
    have htrail : c.initialTrail = Float.ofNat config.numAnts / walk.length := hseeded.initialTrail
    refine ⟨walk.tour, walk.length, hseeded.closed.tour, hlength, htrail, ?_, ?_⟩ <;> rw [htrail]
    · exact zero_lt_div_iff (isFinite_ofNat hsize) hone hpos
    · exact floor_lt_of_isFinite_div (isFinite_ofNat hsize) hone hpos
  case colonyTrail =>
    intro config g c hsize hstart
    obtain ⟨walk, g', -, hseeded⟩ := ColonySystem.start_seed hstart
    obtain ⟨hlength, hpos⟩ := hseeded.closed.closedLength_eq hd
    have hone := one_le_value_ofNat hd.cities_pos hsize
    have hproduct : 0 < Float.ofNat d.cities * walk.length :=
      ComparableScalar.lt_of_lt_of_le hpos (le_mul_of_one_le (isFinite_ofNat hsize) hone hpos)
    refine ⟨walk.tour, walk.length, hseeded.closed.tour, hlength, ?_⟩
    rw [hseeded.initialTrail]
    exact usable_one_div_iff hproduct
  case fitness =>
    intro s hs c hc
    obtain ⟨hpos, hinverse⟩ := hfitness s hs c hc
    rw [hinverse]
    exact ⟨((hs.evaluated.2 c hc).closedLength_eq hd).2.1, usable_one_div_iff hpos⟩
  case wheel =>
    intro s hs
    have hne : s.population.map (·.fitness) ≠ [] := by
      rw [Ne, List.map_eq_nil_iff]
      exact hs.evaluated.1
    have hnonneg : ∀ w ∈ s.population.map (·.fitness), 0 ≤ w := by
      rw [List.forall_mem_map]
      intro c hc
      obtain ⟨hpos, hinverse⟩ := hfitness s hs c hc
      rw [hinverse]
      exact GrowingSums.zero_le_one_div c.tourLength hpos
    have hfinite (c : Genetic.Chromosome Float) (hc : c ∈ s.population) :
        c.fitness.isFinite = true ↔ reciprocalFloor < c.tourLength := by
      obtain ⟨hpos, hinverse⟩ := hfitness s hs c hc
      rw [hinverse, isFinite_one_div_iff hpos]
    have hcounts (c : Genetic.Chromosome Float) (hc : c ∈ s.population) :
        0 < c.fitness ↔ c.tourLength.isFinite = true := by
      obtain ⟨hpos, hinverse⟩ := hfitness s hs c hc
      rw [hinverse, zero_lt_div_iff isFinite_one value_one.ge hpos]
    rw [Wheel.isNaN_cumulative_iff hne hnonneg, List.forall_mem_map]
    simp only [List.mem_map, exists_exists_and_eq_and]
    exact and_congr (forall₂_congr hfinite)
      (exists_congr fun c => and_congr_right (hcounts c))

/-- Of an accepted table every length is positive, and its reciprocal is usable exactly if the
length is tame. -/
theorem usable_throughout [FaithfulShuffle γ] [Power Float] (hd : d.validate = .ok ()) :
    d.UsableWhereTame γ ∧ (d.Moderate → d.UsableThroughout γ) := by
  have hsound : d.Sound := d.validate_meets.of_eq hd
  have htame := hsound.usableWhereTame (γ := γ)
  refine ⟨htame, fun hm => ?_⟩
  have hsize : d.cities < UInt64.size := hm.cities_lt.trans (by norm_num)
  have htours (s : GeneticSearch γ Float) (hs : s.Reached d) (c : Genetic.Chromosome Float)
      (hc : c ∈ s.population) : Tame c.tourLength := by
    obtain ⟨hclosed, hlength, -⟩ := (hs.evaluated.2 c hc).closedLength_eq hsound
    exact hm.tame hsound hclosed hlength
  constructor
  case length =>
    intro tour h
    obtain ⟨length, hlength, -, husable⟩ := htame.length tour h
    have htamed := hm.tame hsound h hlength
    exact ⟨length, hlength, htamed.isFinite, husable.mpr htamed⟩
  case antTrail =>
    intro config g c hants hstart
    obtain ⟨hcolony, -, -, hmanned⟩ := AntSystem.start_sound hstart
    obtain ⟨tour, length, h, hlength, htrail, -⟩ := htame.antTrail config g c hants hstart
    rw [htrail]
    exact hm.usable_div hsound h hlength (hmanned ▸ List.length_pos_of_ne_nil hcolony.manned) hants
  case colonyTrail =>
    intro config g c hstart
    obtain ⟨tour, length, h, hlength, husable⟩ := htame.colonyTrail config g c hsize hstart
    exact husable.mpr (hm.tame_mul hsound h hlength)
  case fitness => exact fun s hs c hc => (htame.fitness s hs c hc).2.mpr (htours s hs c hc)
  case wheel =>
    intro s hs
    obtain ⟨c, hc⟩ := List.exists_mem_of_ne_nil _ hs.evaluated.1
    exact (htame.wheel s hs).mpr ⟨fun c hc => (htours s hs c hc).floor_lt, c, hc,
      (htours s hs c hc).isFinite⟩

theorem usable_throughout_fourCities :
    letI := unitPower
    fourCities.validate = .ok () ∧ fourCities.Moderate ∧
      fourCities.UsableThroughout Generator := by
  let := unitPower
  have hd : fourCities.validate = .ok () := exists_eq_ok (by decide +kernel) |>.elim fun _ => id
  have hm : fourCities.Moderate := ⟨by decide, by decide +kernel⟩
  exact ⟨hd, hm, (usable_throughout hd).2 hm⟩

def twoCities (x : Float) : Distances Float := DistanceTable.toDistances ⟨⟨2, #[0, x, x, 0]⟩⟩

def far : Float := Float.ofBits 0x7FD0000000000000

def near : Float := Float.ofBits 1

theorem unusable_twoCities :
    letI := unitPower
    ((twoCities far).validate = .ok () ∧
      (∃ c : ColonySystem Generator Float, ColonySystem.start (twoCities far)
        ⟨1, 1, 1, 0.5, 0.1, 0.1, 7⟩ (Generator.ofSeed 7) = .ok c ∧ ¬ Usable c.initialTrail) ∧
      ¬ (twoCities far).UsableThroughout Generator) ∧
    ((twoCities near).validate = .ok () ∧
      (∃ length, Tour.closedLength (twoCities near) [0, 1, 0] = .ok length ∧
        (1 / length).isFinite = false) ∧
      (∃ s : GeneticSearch Generator Float, s.Reached (twoCities near) ∧
        ∃ stop ∈ Wheel.cumulative (s.population.map (·.fitness)), stop.isNaN = true) ∧
      ¬ (twoCities near).UsableThroughout Generator) := by
  let := unitPower
  have hfar : (twoCities far).validate = .ok () :=
    exists_eq_ok (by decide +kernel) |>.elim fun _ => id
  have hnear : (twoCities near).validate = .ok () :=
    exists_eq_ok (by decide +kernel) |>.elim fun _ => id
  have htrail : Yields (ColonySystem.start (twoCities far) ⟨1, 1, 1, 0.5, 0.1, 0.1, 7⟩
      (Generator.ofSeed 7) : Except (Rejection Float) (ColonySystem Generator Float))
      fun c => ¬ 0 < c.initialTrail := by decide +kernel
  have hwheel : Yields (GeneticSearch.start (twoCities near) ⟨2, 1, 0.9, 0.5, 0.5, 7⟩
      (Generator.ofSeed 7) : Except (Rejection Float) (GeneticSearch Generator Float))
      fun s => ∃ stop ∈ Wheel.cumulative (s.population.map (·.fitness)), stop.isNaN = true := by
    decide +kernel
  have hlength : Yields (Tour.closedLength (twoCities near) [0, 1, 0])
      fun length => (1 / length).isFinite = false := by decide +kernel
  obtain ⟨c, hc, hinitial⟩ := htrail
  obtain ⟨s, hs, stop, hstop, hnan⟩ := hwheel
  have hreached : s.Reached (twoCities near) := ⟨_, _, s, [], 0, hs, rfl⟩
  refine ⟨⟨hfar, ⟨c, hc, fun h => hinitial h.1⟩, fun h => ?_⟩,
    ⟨hnear, hlength, ⟨s, hreached, stop, hstop, hnan⟩, fun h => ?_⟩⟩
  · exact hinitial (h.colonyTrail _ _ c hc).1
  · exact Bool.false_ne_true ((h.wheel s hreached stop hstop).symm.trans hnan)

end Searches
end PopulationSearch
