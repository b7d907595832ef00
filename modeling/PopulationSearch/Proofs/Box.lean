import Mathlib.Data.List.Nodup
import PopulationSearch.Differential.Search
import PopulationSearch.Proofs.Arithmetic
import PopulationSearch.Proofs.Rejections
import PopulationSearch.Swarm.Search

/-! What keeps vectors in their boxes: coordinates are drawn from their intervals, drawn anew unless
they pass the test, or limited once they are known to be numbers. -/

namespace PopulationSearch

variable {γ α : Type} [Scalar α]

namespace Bounds

structure Proper (b : Bounds α) : Prop where
  length_upper : b.upper.length = b.dimension
  interval : ∀ (d : Nat) (lo hi : α), b.lower[d]? = some lo → b.upper[d]? = some hi →
    Interval.Proper lo hi

structure Sound (b : Bounds α) : Prop extends Proper b where
  dimension_pos : 0 < b.dimension
  width : ∀ (d : Nat) (lo hi : α), b.lower[d]? = some lo → b.upper[d]? = some hi →
    Scalar.isFinite (hi - lo) = true

variable {b : Bounds α}

omit [Scalar α] in
theorem getElem?_intervals {d : Nat} {lo hi : α} :
    b.intervals[d]? = some (lo, hi) ↔ b.lower[d]? = some lo ∧ b.upper[d]? = some hi :=
  List.getElem?_zip_eq_some

omit [Scalar α] in
theorem mem_intervals {lo hi : α} :
    (lo, hi) ∈ b.intervals ↔ ∃ d : Nat, b.lower[d]? = some lo ∧ b.upper[d]? = some hi := by
  rw [List.mem_iff_getElem?]
  exact exists_congr fun _ => getElem?_intervals

theorem sound_of_validate [FiniteArithmetic α] (h : b.validate = .ok ()) : b.Sound := by
  unfold validate at h
  split at h
  · cases h
  case isFalse hlengths =>
  split at h
  · cases h
  case isFalse hne =>
  split at h
  · cases h
  case h_2 hnone =>
    have hsound : ∀ (d : Nat) (lo hi : α), b.lower[d]? = some lo → b.upper[d]? = some hi →
        Interval.isSound lo hi = true := by
      intro d lo hi hlo hhi
      simpa using find?_zipIdx_eq_none hnone (getElem?_intervals.mpr ⟨hlo, hhi⟩)
    refine ⟨⟨(not_not.mp hlengths).symm, ?_⟩, ?_, ?_⟩
    · exact fun d lo hi hlo hhi => (Interval.proper_of_isSound (hsound d lo hi hlo hhi)).1
    · simpa [dimension, List.length_pos_iff] using hne
    · exact fun d lo hi hlo hhi => (Interval.proper_of_isSound (hsound d lo hi hlo hhi)).2

theorem Proper.exists_interval (h : b.Proper) {d : Nat} (hd : d < b.dimension) :
    ∃ lo hi, b.lower[d]? = some lo ∧ b.upper[d]? = some hi ∧ Interval.Proper lo hi := by
  have hlo : b.lower[d]? = some b.lower[d] := List.getElem?_eq_getElem hd
  have hd' : d < b.upper.length := by rwa [h.length_upper]
  have hhi : b.upper[d]? = some b.upper[d] := List.getElem?_eq_getElem hd'
  exact ⟨_, _, hlo, hhi, h.interval d _ _ hlo hhi⟩

theorem contains_iff {x : List α} :
    b.contains x = true ↔ x.length = b.dimension ∧
      ∀ (d : Nat) (y lo hi : α), x[d]? = some y → b.lower[d]? = some lo → b.upper[d]? = some hi →
        Interval.contains lo hi y = true := by
  rw [contains, Bool.and_eq_true, beq_iff_eq, List.all_eq_true]
  apply and_congr_right'
  constructor
  · intro h d y lo hi hy hlo hhi
    have hzip : (x.zip b.intervals)[d]? = some (y, (lo, hi)) :=
      List.getElem?_zip_eq_some.mpr ⟨hy, getElem?_intervals.mpr ⟨hlo, hhi⟩⟩
    exact h _ (List.mem_of_getElem? hzip)
  · rintro h ⟨y, lo, hi⟩ hmem
    obtain ⟨d, hzip⟩ := List.mem_iff_getElem?.mp hmem
    obtain ⟨hy, hinterval⟩ := List.getElem?_zip_eq_some.mp hzip
    obtain ⟨hlo, hhi⟩ := getElem?_intervals.mp hinterval
    exact h d y lo hi hy hlo hhi

theorem exists_getElem?_of_contains {x : List α} (h : b.contains x = true) {d : Nat}
    (hd : d < b.dimension) : ∃ y, x[d]? = some y := by
  rw [contains_iff] at h
  exact ⟨_, List.getElem?_eq_getElem (h.1.symm ▸ hd)⟩

theorem Proper.isFinite_of_contains [FiniteArithmetic α] (hb : b.Proper) {x : List α}
    (h : b.contains x = true) : ∀ y ∈ x, Scalar.isFinite y = true := by
  intro y hy
  obtain ⟨d, hd⟩ := List.mem_iff_getElem?.mp hy
  obtain ⟨hlen, hmem⟩ := contains_iff.mp h
  have hdim : d < b.dimension := hlen ▸ (List.getElem?_eq_some_iff.mp hd).1
  obtain ⟨lo, hi, hlo, hhi, hproper⟩ := hb.exists_interval hdim
  exact hproper.isFinite_of_contains (hmem d y lo hi hd hlo hhi)

theorem Proper.isNaN_of_contains [FiniteArithmetic α] (hb : b.Proper) {x : List α}
    (h : b.contains x = true) : ∀ y ∈ x, Scalar.isNaN y = false := fun y hy =>
  FiniteArithmetic.isNaN_of_isFinite y (hb.isFinite_of_contains h y hy)

theorem contains_of_forall₂_range {x : List α}
    (h : List.Forall₂ (fun d y => ∀ lo hi : α, b.lower[d]? = some lo → b.upper[d]? = some hi →
      Interval.contains lo hi y = true) (List.range b.dimension) x) : b.contains x = true := by
  refine contains_iff.mpr ⟨h.length_eq.symm.trans List.length_range, ?_⟩
  intro d y lo hi hy hlo hhi
  have hd : d < b.dimension := (List.getElem?_eq_some_iff.mp hlo).1
  obtain ⟨y', hy', hin⟩ := exists_getElem?_of_forall₂ h (List.getElem?_range hd)
  cases hy.symm.trans hy'
  exact hin lo hi hlo hhi

def around (vmax : List α) : Bounds α := ⟨vmax.map (-·), vmax⟩

def reach (share : α) (b : Bounds α) : List α :=
  b.intervals.map fun interval => share * (interval.2 - interval.1)

theorem dimension_around (vmax : List α) : (around vmax).dimension = vmax.length :=
  List.length_map ..

theorem getElem?_lower_around {vmax : List α} {d : Nat} {most : α} (h : vmax[d]? = some most) :
    (around vmax).lower[d]? = some (-most) := by
  rw [around, List.getElem?_map, h]
  rfl

theorem around_proper [FiniteArithmetic α] {vmax : List α}
    (h : ∀ v ∈ vmax, Scalar.isFinite v = true ∧ 0 ≤ v) : (around vmax).Proper where
  length_upper := (dimension_around vmax).symm
  interval := by
    intro d lo hi hlo hhi
    have hlower : (around vmax).lower[d]? = some (-hi) := getElem?_lower_around hhi
    cases hlo.symm.trans hlower
    obtain ⟨hfinite, hpos⟩ := h hi (List.mem_of_getElem? hhi)
    exact Interval.proper_neg hfinite hpos

theorem Sound.length_reach (h : b.Sound) (share : α) : (b.reach share).length = b.dimension := by
  rw [reach, List.length_map, intervals, List.length_zip, h.length_upper]
  exact Nat.min_self _

theorem Sound.mem_reach [FiniteArithmetic α] (h : b.Sound) {share : α} (hpos : 0 < share)
    (hone : share ≤ 1) : ∀ v ∈ b.reach share, Scalar.isFinite v = true ∧ 0 ≤ v := by
  intro v hv
  obtain ⟨⟨lo, hi⟩, hinterval, rfl⟩ := List.mem_map.mp hv
  obtain ⟨d, hlo, hhi⟩ := mem_intervals.mp hinterval
  have hproper := h.interval d lo hi hlo hhi
  have hwidth := h.width d lo hi hlo hhi
  have hshare := ComparableScalar.le_of_lt hpos
  have hnonneg := FiniteArithmetic.zero_le_sub lo hi hproper.isFinite_lower hproper.isFinite_upper
    hproper.le
  exact ⟨FiniteArithmetic.isFinite_share share _ hshare hone hwidth,
    FiniteArithmetic.zero_le_share share _ hshare hone hwidth hnonneg⟩

variable [Source γ α] [FiniteArithmetic α] [UniformDraws γ]

theorem sample_yields (hb : b.Proper) :
    Draw.Yields (b.sample : Draw γ (List α)) fun x => b.contains x = true := by
  have hdraws : Draw.Yields (b.sample : Draw γ (List α)) (List.Forall₂
      (fun interval y => Interval.contains interval.1 interval.2 y = true) b.intervals) := by
    refine Draw.Yields.mapM b.intervals fun interval hinterval => ?_
    obtain ⟨d, hlo, hhi⟩ := mem_intervals.mp hinterval
    exact Draw.uniform_yields (hb.interval d _ _ hlo hhi)
  refine hdraws.mono fun x hx => contains_iff.mpr ⟨?_, fun d y lo hi hy hlo hhi => ?_⟩
  · rw [← hx.length_eq, intervals, List.length_zip, hb.length_upper]
    exact Nat.min_self _
  · have hinterval : b.intervals[d]? = some (lo, hi) := getElem?_intervals.mpr ⟨hlo, hhi⟩
    obtain ⟨y', hy', hin⟩ := exists_getElem?_of_forall₂ hx hinterval
    cases hy.symm.trans hy'
    exact hin

omit [FiniteArithmetic α] [UniformDraws γ] in
theorem sample_around (vmax : List α) :
    ((around vmax).sample : Draw γ (List α)) = vmax.mapM fun v => Draw.uniform (-v) v := by
  have hintervals : (around vmax).intervals = vmax.map fun v => (-v, v) := by
    have hzip := List.zip_map' (l := vmax) (f := (-·)) (g := id)
    rwa [List.map_id] at hzip
  rw [sample, hintervals, List.mapM_map]
  rfl

end Bounds

def Objective.FailsInside (o : Objective α) (f : Fault) : Prop :=
  ∃ x, o.bounds.contains x = true ∧ o.evaluate x = .error f

theorem Objective.evaluate_meets (o : Objective α) {x : List α} (hx : o.bounds.contains x = true) :
    Meets (o.evaluate x) (fun _ => True) o.FailsInside := by
  exact (Meets.result _).mono (fun _ _ => trivial) fun f hf => ⟨x, hx, hf⟩

namespace DifferentialSearch

variable [Source γ α]

omit [Scalar α] in
theorem donorSlot_lt {target drawn n : Nat} (h : drawn < n - 1) : donorSlot target drawn < n := by
  unfold donorSlot
  split <;> omega

theorem donorSlot_ne (target drawn : Nat) : donorSlot target drawn ≠ target := by
  unfold donorSlot
  split <;> omega

theorem donorSlot_injective (target : Nat) : Function.Injective (donorSlot target) := by
  intro k l h
  unfold donorSlot at h
  split at h <;> split at h <;> omega

def drawDonors (s : DifferentialSearch γ α) (g : γ) : List Nat × γ :=
  Source.sample (s.population.length - 1) 3 (Source.index s.objective.bounds.dimension g).2

/-- A dimension that is the mutant's for certain, and the slots of three donors that differ from
each other and from the target. -/
structure Drawn (s : DifferentialSearch γ α) (i : Nat) (g : γ) (certain a b c : Nat) : Prop where
  certain_eq : (Source.index s.objective.bounds.dimension g).1 = certain
  donors_eq : (drawDonors s g).1.map (donorSlot i) = [a, b, c]
  certain_lt : certain < s.objective.bounds.dimension
  donors_lt : ∀ slot ∈ [a, b, c], slot < s.population.length
  distinct : [i, a, b, c].Nodup

omit [Scalar α] in
theorem exists_drawn [BoundedIndex γ] [DistinctSamples γ] {s : DifferentialSearch γ α}
    (hdim : 0 < s.objective.bounds.dimension) (hfour : 4 ≤ s.population.length) (i : Nat) (g : γ) :
    ∃ certain a b c, Drawn s i g certain a b c := by
  have hthree : 3 ≤ s.population.length - 1 := by omega
  obtain ⟨k₀, k₁, k₂, hdonors⟩ := List.length_eq_three.mp (DistinctSamples.length_sample
    (s.population.length - 1) 3 (Source.index s.objective.bounds.dimension g).2 hthree)
  have hdistinct := DistinctSamples.distinct_sample (s.population.length - 1) 3
    (Source.index s.objective.bounds.dimension g).2 hthree
  rw [hdonors] at hdistinct
  have hlt : ∀ slot ∈ [k₀, k₁, k₂].map (donorSlot i), slot < s.population.length :=
    List.forall_mem_map.mpr fun k hk => donorSlot_lt (hdistinct.lt k hk)
  have hnodup : ([k₀, k₁, k₂].map (donorSlot i)).Nodup :=
    List.Nodup.map (donorSlot_injective i) hdistinct.nodup
  have htarget : i ∉ [k₀, k₁, k₂].map (donorSlot i) := by
    rw [List.mem_map]
    rintro ⟨k, -, hk⟩
    exact donorSlot_ne i k hk
  refine ⟨_, donorSlot i k₀, donorSlot i k₁, donorSlot i k₂, rfl, ?_,
    BoundedIndex.index_lt _ g hdim, hlt, List.nodup_cons.mpr ⟨htarget, hnodup⟩⟩
  rw [drawDonors, hdonors]
  rfl

omit [Scalar α] [Source γ α] in
theorem donor_eq {population : List (List α)} {target : Nat} {donors : List Nat} {k slot : Nat}
    {x : List α} (hslot : (donors.map (donorSlot target))[k]? = some slot)
    (hx : population[slot]? = some x) : donor population target donors k = .ok x := by
  rw [List.getElem?_map, Option.map_eq_some_iff] at hslot
  obtain ⟨drawn, hdrawn, rfl⟩ := hslot
  rw [donor, hdrawn]
  exact demand_eq_ok.mpr hx

def coordinate (s : DifferentialSearch γ α) (certain : Nat) (base ahead behind target : List α)
    (d : Nat) : Draw γ α := do
  let r ← Draw.unit
  let x ←
    if d = certain ∨ r ≤ s.config.cr then mutant s.config.f base ahead behind d
    else demand target[d]?
  repair s.objective.bounds d x

theorem Drawn.trial_run {s : DifferentialSearch γ α} {i certain a b c : Nat} {g : γ}
    (h : Drawn s i g certain a b c) (hfour : 4 ≤ s.population.length)
    {base ahead behind target : List α} (hbase : s.population[a]? = some base)
    (hahead : s.population[b]? = some ahead) (hbehind : s.population[c]? = some behind)
    (htarget : s.population[i]? = some target) :
    (trial s i).run g = ((List.range s.objective.bounds.dimension).mapM
      (coordinate s certain base ahead behind target)).run (drawDonors s g).2 := by
  have hdim : s.objective.bounds.dimension ≠ 0 := Nat.ne_zero_of_lt h.certain_lt
  have hbelow : (Draw.below s.objective.bounds.dimension : Draw γ Nat).run g =
      .ok (Source.index s.objective.bounds.dimension g) := if_neg hdim
  have hsample : (Draw.sample (s.population.length - 1) 3 : Draw γ (List Nat)).run
      (Source.index s.objective.bounds.dimension g).2 = .ok (drawDonors s g) := if_neg (by omega)
  have hslot (k : Nat) : ((drawDonors s g).1.map (donorSlot i))[k]? = [a, b, c][k]? := by
    rw [h.donors_eq]
  simp only [trial, StateT.run_bind, hbelow, hsample, ok_bind, donor_eq (hslot 0) hbase,
    donor_eq (hslot 1) hahead, donor_eq (hslot 2) hbehind, demand_eq_ok.mpr htarget,
    Draw.run_lift_ok, h.certain_eq]
  rfl

structure Repaired (lo hi m : α) (g : γ) (x : α) (g' : γ) : Prop where
  kept : lo ≤ m ∧ m ≤ hi → x = m ∧ g' = g
  redrawn : ¬ (lo ≤ m ∧ m ≤ hi) → (Draw.uniform lo hi).run g = .ok (x, g')
  mem : lo ≤ x ∧ x ≤ hi

def cell (s : DifferentialSearch γ α) (slot d : Nat) : Option α :=
  s.population[slot]?.bind (·[d]?)

omit [Source γ α] in
theorem cell_mem {s : DifferentialSearch γ α}
    (hpopulation : ∀ x ∈ s.population, s.objective.bounds.contains x = true) {slot d : Nat}
    {y lo hi : α} (hy : s.cell slot d = some y) (hlo : s.objective.bounds.lower[d]? = some lo)
    (hhi : s.objective.bounds.upper[d]? = some hi) : lo ≤ y ∧ y ≤ hi := by
  obtain ⟨x, hx, hy⟩ := Option.bind_eq_some_iff.mp hy
  have hin := Bounds.contains_iff.mp (hpopulation x (List.mem_of_getElem? hx))
  exact Interval.contains_iff.mp (hin.2 d y lo hi hy hlo hhi)

/-- How a coordinate of a trial comes about, from a source in one state to a source in another. -/
structure Coordinate (s : DifferentialSearch γ α) (i certain a b c d : Nat) (g : γ) (x : α)
    (g' : γ) : Prop where
  inherited : d ≠ certain → ¬ (Source.unit g).1 ≤ s.config.cr →
    s.cell i d = some x ∧ g' = (Source.unit g).2
  mutated : d = certain ∨ (Source.unit g).1 ≤ s.config.cr → ∃ xa xb xc lo hi,
    s.cell a d = some xa ∧ s.cell b d = some xb ∧ s.cell c d = some xc ∧
    s.objective.bounds.lower[d]? = some lo ∧ s.objective.bounds.upper[d]? = some hi ∧
    Repaired lo hi (xa + s.config.f * (xb - xc)) (Source.unit g).2 x g'

variable [FiniteArithmetic α] [UniformDraws γ]

theorem repair_repairs {b : Bounds α} (hb : b.Proper) {d : Nat} {lo hi : α}
    (hlo : b.lower[d]? = some lo) (hhi : b.upper[d]? = some hi) (m : α) (g : γ) :
    Yields ((repair b d m).run g) fun r => Repaired lo hi m g r.1 r.2 := by
  simp only [repair, StateT.run_bind, demand_eq_ok.mpr hlo, demand_eq_ok.mpr hhi,
    Draw.run_lift_ok, ok_bind]
  split
  case isTrue hin =>
    rw [Interval.contains_iff] at hin
    exact .ok ⟨fun _ => ⟨rfl, rfl⟩, fun hout => absurd hin hout, hin⟩
  case isFalse hout =>
    rw [Interval.contains_iff] at hout
    obtain ⟨r, hdraw, hr⟩ := Draw.uniform_yields (hb.interval d lo hi hlo hhi) g
    exact ⟨r, hdraw, fun hin => absurd hin hout, fun _ => hdraw, Interval.contains_iff.mp hr⟩

theorem coordinate_yields {s : DifferentialSearch γ α} (hb : s.objective.bounds.Proper)
    {i certain a b c : Nat} {base ahead behind target : List α}
    (hbase : s.population[a]? = some base) (hahead : s.population[b]? = some ahead)
    (hbehind : s.population[c]? = some behind) (htarget : s.population[i]? = some target)
    (hpopulation : ∀ x ∈ s.population, s.objective.bounds.contains x = true) {d : Nat}
    (hd : d < s.objective.bounds.dimension) (g : γ) :
    Yields ((coordinate s certain base ahead behind target d).run g) fun r =>
      Coordinate s i certain a b c d g r.1 r.2 := by
  obtain ⟨lo, hi, hlo, hhi, -⟩ := hb.exists_interval hd
  have hcell {slot : Nat} {x : List α} (hx : s.population[slot]? = some x) :
      ∃ y, x[d]? = some y ∧ s.cell slot d = some y := by
    obtain ⟨y, hy⟩ :=
      Bounds.exists_getElem?_of_contains (hpopulation x (List.mem_of_getElem? hx)) hd
    exact ⟨y, hy, by rw [cell, hx, Option.bind_some, hy]⟩
  simp only [coordinate, StateT.run_bind, Draw.run_unit, ok_bind]
  split
  case isTrue hcross =>
    obtain ⟨xa, hxa, hca⟩ := hcell hbase
    obtain ⟨xb, hxb, hcb⟩ := hcell hahead
    obtain ⟨xc, hxc, hcc⟩ := hcell hbehind
    have hmutant : mutant s.config.f base ahead behind d =
        .ok (xa + s.config.f * (xb - xc)) := by
      simp only [mutant, demand_eq_ok.mpr hxa, demand_eq_ok.mpr hxb, demand_eq_ok.mpr hxc, ok_bind]
      rfl
    rw [hmutant, StateT.run_bind, Draw.run_lift_ok, ok_bind]
    refine (repair_repairs hb hlo hhi _ _).mono fun r hr => ⟨fun hd hr => ?_, fun _ => ?_⟩
    · exact absurd hcross (not_or_intro hd hr)
    · exact ⟨xa, xb, xc, lo, hi, hca, hcb, hcc, hlo, hhi, hr⟩
  case isFalse hinherit =>
    obtain ⟨y, hy, hcy⟩ := hcell htarget
    rw [demand_eq_ok.mpr hy, StateT.run_bind, Draw.run_lift_ok, ok_bind]
    refine (repair_repairs hb hlo hhi _ _).mono fun r hr => ⟨fun _ _ => ?_, fun h => ?_⟩
    · obtain ⟨hx, hg⟩ := hr.kept (cell_mem hpopulation hcy hlo hhi)
      exact ⟨hx ▸ hcy, hg⟩
    · exact absurd h hinherit

omit [FiniteArithmetic α] [UniformDraws γ] in
theorem Coordinate.mem {s : DifferentialSearch γ α}
    (hpopulation : ∀ x ∈ s.population, s.objective.bounds.contains x = true)
    {i certain a b c d : Nat} {g g' : γ} {x : α} (h : s.Coordinate i certain a b c d g x g')
    {lo hi : α} (hlo : s.objective.bounds.lower[d]? = some lo)
    (hhi : s.objective.bounds.upper[d]? = some hi) : lo ≤ x ∧ x ≤ hi := by
  by_cases hcross : d = certain ∨ (Source.unit g).1 ≤ s.config.cr
  · obtain ⟨_, _, _, lo', hi', -, -, -, hlo', hhi', hrepaired⟩ := h.mutated hcross
    cases hlo.symm.trans hlo'
    cases hhi.symm.trans hhi'
    exact hrepaired.mem
  · obtain ⟨hother, hr⟩ := not_or.mp hcross
    exact cell_mem hpopulation (h.inherited hother hr).1 hlo hhi

section Trials

variable [BoundedIndex γ] [DistinctSamples γ] {s : DifferentialSearch γ α} {i : Nat}

theorem trial_built (hb : s.objective.bounds.Sound) (hfour : 4 ≤ s.population.length)
    (hpopulation : ∀ x ∈ s.population, s.objective.bounds.contains x = true)
    (hi : i < s.population.length) (g : γ) :
    ∃ certain a b c, Drawn s i g certain a b c ∧ Yields ((trial s i).run g) fun r =>
      Draw.Thread (s.Coordinate i certain a b c) (List.range s.objective.bounds.dimension)
        (drawDonors s g).2 r.1 r.2 := by
  obtain ⟨certain, a, b, c, hdrawn⟩ := exists_drawn hb.dimension_pos hfour i g
  have hbase := List.getElem?_eq_getElem (hdrawn.donors_lt a (by simp))
  have hahead := List.getElem?_eq_getElem (hdrawn.donors_lt b (by simp))
  have hbehind := List.getElem?_eq_getElem (hdrawn.donors_lt c (by simp))
  have htarget := List.getElem?_eq_getElem hi
  refine ⟨certain, a, b, c, hdrawn, ?_⟩
  rw [hdrawn.trial_run hfour hbase hahead hbehind htarget]
  exact Draw.mapM_thread _ (fun d hd => coordinate_yields hb.toProper hbase hahead hbehind htarget
    hpopulation (List.mem_range.mp hd)) _

theorem trial_yields (hb : s.objective.bounds.Sound) (hfour : 4 ≤ s.population.length)
    (hpopulation : ∀ x ∈ s.population, s.objective.bounds.contains x = true)
    (hi : i < s.population.length) :
    Draw.Yields (trial s i) fun x => s.objective.bounds.contains x = true := by
  intro g
  obtain ⟨certain, a, b, c, -, hbuilt⟩ := trial_built hb hfour hpopulation hi g
  refine hbuilt.mono fun r hr => Bounds.contains_of_forall₂_range (hr.forall₂ ?_)
  exact fun d g' x g'' hx lo hi hlo hhi => Interval.contains_iff.mpr (hx.mem hpopulation hlo hhi)

end Trials

end DifferentialSearch

namespace Swarm.Particle

structure Inside (b : Bounds α) (vmax : List α) (p : Particle α) : Prop where
  position : b.contains p.position = true
  velocity : (Bounds.around vmax).contains p.velocity = true
  bestPosition : b.contains p.bestPosition = true

variable [FiniteArithmetic α]

theorem limit_yields {vmax : α} (hfinite : Scalar.isFinite vmax = true) (hpos : 0 ≤ vmax) (v : α) :
    Yields (limit vmax v) fun v' => Interval.contains (-vmax) vmax v' = true := by
  unfold limit
  split
  case isTrue =>
    exact .ok (Interval.contains_iff.mpr ⟨FiniteArithmetic.neg_le_zero vmax hpos, hpos⟩)
  case isFalse hnumber =>
    exact Interval.clamp_yields (Interval.proper_neg hfinite hpos).le (by simpa using hnumber)

variable [Source γ α] {b : Bounds α} {vmax best : List α} {p : Particle α}

omit [FiniteArithmetic α] in
theorem Inside.length_position (hp : p.Inside b vmax) : p.position.length = b.dimension :=
  (Bounds.contains_iff.mp hp.position).1

theorem flyDimension_yields (config : Config α) (hb : b.Proper)
    (hvmax : ∀ v ∈ vmax, Scalar.isFinite v = true ∧ 0 ≤ v) (hlen : vmax.length = b.dimension)
    (hp : p.Inside b vmax) (hbest : b.contains best = true) {d : Nat} (hd : d < b.dimension) :
    Draw.Yields (flyDimension config vmax b best p d : Draw γ (α × α)) fun move =>
      (∀ lo hi : α, (Bounds.around vmax).lower[d]? = some lo →
        (Bounds.around vmax).upper[d]? = some hi → Interval.contains lo hi move.1 = true) ∧
      ∀ lo hi : α, b.lower[d]? = some lo → b.upper[d]? = some hi →
        Interval.contains lo hi move.2 = true := by
  obtain ⟨lo, hi, hlo, hhi, hproper⟩ := hb.exists_interval hd
  have hmost : vmax[d]? = some vmax[d] := List.getElem?_eq_getElem (hlen.symm ▸ hd)
  obtain ⟨hfinite, hpos⟩ := hvmax _ (List.mem_of_getElem? hmost)
  have hleast := Bounds.getElem?_lower_around hmost
  obtain ⟨x, hx⟩ := Bounds.exists_getElem?_of_contains hp.position hd
  obtain ⟨own, hown⟩ := Bounds.exists_getElem?_of_contains hp.bestPosition hd
  obtain ⟨goal, hgoal⟩ := Bounds.exists_getElem?_of_contains hbest hd
  have hdim : d < (Bounds.around vmax).dimension := by rwa [Bounds.dimension_around, hlen]
  obtain ⟨velocity, hvelocity⟩ := Bounds.exists_getElem?_of_contains hp.velocity hdim
  have hxin := (Bounds.contains_iff.mp hp.position).2 d x lo hi hx hlo hhi
  refine Draw.unit_yields.bind fun r₁ _ => Draw.unit_yields.bind fun r₂ _ => ?_
  apply Draw.Yields.demand_bind hx
  apply Draw.Yields.demand_bind hvelocity
  apply Draw.Yields.demand_bind hown
  apply Draw.Yields.demand_bind hgoal
  apply Draw.Yields.demand_bind hmost
  apply Draw.Yields.demand_bind hlo
  apply Draw.Yields.demand_bind hhi
  refine (Draw.Yields.lift (limit_yields hfinite hpos _)).bind fun v hv => ?_
  -- the position and the limited velocity are finite, so their sum is a number
  have hsum : Scalar.isNaN (x + v) = false :=
    FiniteArithmetic.isNaN_add x v (hproper.isFinite_of_contains hxin)
      ((Interval.proper_neg hfinite hpos).isFinite_of_contains hv)
  refine (Draw.Yields.lift (Interval.clamp_yields hproper.le hsum)).bind fun y hy => .pure ?_
  refine ⟨fun lo' hi' hlo' hhi' => ?_, fun lo' hi' hlo' hhi' => ?_⟩
  · cases hleast.symm.trans hlo'
    cases hmost.symm.trans hhi'
    exact hv
  · cases hlo.symm.trans hlo'
    cases hhi.symm.trans hhi'
    exact hy

theorem fly_yields (config : Config α) (hb : b.Proper)
    (hvmax : ∀ v ∈ vmax, Scalar.isFinite v = true ∧ 0 ≤ v) (hlen : vmax.length = b.dimension)
    (hp : p.Inside b vmax) (hbest : b.contains best = true) :
    Draw.Yields (fly config vmax b best p : Draw γ (Particle α)) (Inside b vmax) := by
  unfold fly
  rw [hp.length_position]
  refine (Draw.Yields.mapM _ fun d hd => flyDimension_yields config hb hvmax hlen hp hbest
    (List.mem_range.mp hd)).bind fun moves hmoves => .pure ⟨?_, ?_, hp.bestPosition⟩
  · apply Bounds.contains_of_forall₂_range
    exact (List.forall₂_map_right_iff).mpr (hmoves.imp fun _ _ h => h.2)
  · apply Bounds.contains_of_forall₂_range
    rw [Bounds.dimension_around, hlen]
    exact (List.forall₂_map_right_iff).mpr (hmoves.imp fun _ _ h => h.1)

omit [FiniteArithmetic α] [Source γ α] in
theorem Inside.observe (hp : p.Inside b vmax) (fitter : α → α → Bool) (value : α) :
    (p.observe fitter value).Inside b vmax := by
  unfold Particle.observe
  split
  · exact ⟨hp.position, hp.velocity, hp.position⟩
  · exact ⟨hp.position, hp.velocity, hp.bestPosition⟩

end Swarm.Particle
end PopulationSearch
