import PopulationSearch.Proofs.Agreement
import PopulationSearch.Proofs.Arithmetic
import PopulationSearch.Proofs.Breeding
import PopulationSearch.Proofs.Draws
import PopulationSearch.Proofs.Rejections

/-! Crossing in place comes to pairing all at once. Lots and segments are drawn without a look at
the population, and members are crossed as they were before the pass. -/

namespace PopulationSearch

open Genetic

variable {γ α : Type}

namespace Draw

variable {β β' δ δ' : Type}

theorem demand_bind_of_eq {o : Option β} {y : β} {f : β → Draw γ δ} (ho : o = some y) :
    (do let z ← demand o; f z) = f y := by
  rw [ho]
  rfl

namespace Agree

theorem of_yields {m : Draw γ β} {P : β → Prop} (h : Yields m P) :
    Agree (fun y y' => y' = y ∧ P y) m m := by
  intro g
  obtain ⟨r, hr, hP⟩ := h g
  rw [hr]
  exact .ok ⟨⟨rfl, hP⟩, rfl⟩

theorem foldlM_range {f : δ → Nat → Draw γ δ} {f' : δ' → Nat → Draw γ δ'}
    (I : Nat → δ → δ' → Prop) {z : δ} {z' : δ'} (h₀ : I 0 z z') (n : Nat)
    (hstep : ∀ i < n, ∀ w w', I i w w' → Agree (I (i + 1)) (f w i) (f' w' i)) :
    Agree (I n) ((List.range n).foldlM f z) ((List.range n).foldlM f' z') := by
  induction n with
  | zero => exact pure h₀
  | succ n ih =>
    rw [List.range_succ, List.foldlM_append, List.foldlM_append]
    refine (ih fun i hi => hstep i (Nat.lt_succ_of_lt hi)).bind fun w w' hw => ?_
    rw [List.foldlM_cons, List.foldlM_cons]
    exact (hstep n (Nat.lt_succ_self n) w w' hw).bind fun _ _ h => pure h

end Agree
end Draw

theorem map_set_of_getElem? {β δ : Type} {f : β → δ} {l : List β} {i : Nat} {y z : β}
    (hi : l[i]? = some y) (h : f z = f y) : (l.set i z).map f = l.map f := by
  obtain ⟨hlt, rfl⟩ := List.getElem?_eq_some_iff.mp hi
  rw [List.map_set, h, ← List.map_set, List.set_getElem_self]

namespace GeneticSearch

/-- A lot for each member, and the ends of a segment for each pair. -/
structure Lottery (α : Type) where
  lots : List α
  cuts : List (Nat × Nat)

namespace Lottery

variable [Scalar α] {rate : α}

def participants (rate : α) (l : Lottery α) : List Nat := l.lots.findIdxs fun lot => lot < rate

def extend [Source γ α] (rate : α) (n : Nat) (l : Lottery α) : Draw γ (Lottery α) := do
  let lot ← Draw.unit
  let lots := l.lots ++ [lot]
  if 2 * (l.cuts.length + 1) ≤ (participants rate ⟨lots, l.cuts⟩).length then
    let cut ← randomSegment n
    return ⟨lots, l.cuts ++ [cut]⟩
  return ⟨lots, l.cuts⟩

def draw [Source γ α] (rate : α) (n members : Nat) : Draw γ (Lottery α) :=
  (List.range members).foldlM (fun l _ => l.extend rate n) ⟨[], []⟩

variable {l : Lottery α} {lot : α} {cuts : List (Nat × Nat)} {i j x y : Nat}

theorem participants_append_of_lt (h : lot < rate) :
    participants rate ⟨l.lots ++ [lot], cuts⟩ = l.participants rate ++ [l.lots.length] := by
  simp [participants, List.findIdxs_append, h]

theorem participants_append_of_not_lt (h : ¬ lot < rate) :
    participants rate ⟨l.lots ++ [lot], cuts⟩ = l.participants rate := by
  simp [participants, List.findIdxs_append, h]

@[simp]
theorem participants_nil : participants rate ⟨[], cuts⟩ = [] := List.findIdxs_nil

theorem lt_of_mem_participants (h : i ∈ l.participants rate) : i < l.lots.length :=
  List.lt_add_of_mem_findIdxs i h

theorem ne_of_participants (hx : (l.participants rate)[x]? = some i)
    (hy : (l.participants rate)[y]? = some j) (hxy : x ≠ y) : i ≠ j := by
  rintro rfl
  obtain ⟨hlt, -⟩ := List.getElem?_eq_some_iff.mp hx
  exact hxy ((List.getElem?_inj hlt List.nodup_findIdxs).mp (hx.trans hy.symm))

end Lottery

def Mated (n : Nat) (population crossed : List (Chromosome α)) (cut : Nat × Nat) (i j : Nat) :
    Prop :=
  ∃ a b children, cut.1 ≤ cut.2 ∧ cut.2 < n ∧ population[i]? = some a ∧ population[j]? = some b ∧
    crossoverAt a.genes b.genes cut.1 cut.2 = .ok children ∧
    crossed[i]? = some { a with genes := children.1 } ∧
    crossed[j]? = some { b with genes := children.2 }

theorem Mated.congr {n : Nat} {population crossed crossed' : List (Chromosome α)}
    {cut : Nat × Nat} {i j : Nat} (h : Mated n population crossed cut i j)
    (hi : crossed'[i]? = crossed[i]?) (hj : crossed'[j]? = crossed[j]?) :
    Mated n population crossed' cut i j := by
  unfold Mated
  rw [hi, hj]
  exact h

variable [Scalar α]

/-- Participants that follow each other, the first at an even place, are crossed; others stay. -/
structure Paired (rate : α) (n : Nat) (population : List (Chromosome α)) (l : Lottery α)
    (crossed : List (Chromosome α)) : Prop where
  mated : ∀ k i j : Nat, (l.participants rate)[2 * k]? = some i →
    (l.participants rate)[2 * k + 1]? = some j →
    ∃ cut, l.cuts[k]? = some cut ∧ Mated n population crossed cut i j
  bystander : ∀ i, i ∉ l.participants rate → crossed[i]? = population[i]?
  unpaired : ∀ k i : Nat, (l.participants rate)[2 * k]? = some i →
    (l.participants rate)[2 * k + 1]? = none → crossed[i]? = population[i]?
  scores_eq : crossed.map (fun c => (c.tourLength, c.fitness)) =
    population.map fun c => (c.tourLength, c.fitness)

structure Underway (rate : α) (n : Nat) (population : List (Chromosome α)) (i : Nat)
    (l : Lottery α) (state : Option Nat × List (Chromosome α)) : Prop where
  lots_length : l.lots.length = i
  cuts_length : l.cuts.length = (l.participants rate).length / 2
  waiting_eq : state.1 = (l.participants rate)[2 * l.cuts.length]?
  mated : ∀ k i j : Nat, (l.participants rate)[2 * k]? = some i →
    (l.participants rate)[2 * k + 1]? = some j →
    ∃ cut, l.cuts[k]? = some cut ∧ Mated n population state.2 cut i j
  untouched : ∀ i, i ∉ (l.participants rate).take (2 * l.cuts.length) →
    state.2[i]? = population[i]?
  scores_eq : state.2.map (fun c => (c.tourLength, c.fitness)) =
    population.map fun c => (c.tourLength, c.fitness)

namespace Underway

variable {rate : α} {n size i mate : Nat} {population : List (Chromosome α)} {l : Lottery α}
  {state : Option Nat × List (Chromosome α)} {lot : α}

theorem start (rate : α) (n : Nat) (population : List (Chromosome α)) :
    Underway rate n population 0 ⟨[], []⟩ (none, population) where
  lots_length := rfl
  cuts_length := by simp
  waiting_eq := by simp
  mated := by simp
  untouched _ _ := rfl
  scores_eq := rfl

theorem eq_of_ne (h : Underway rate n population i l state) {x u : Nat}
    (hx : (l.participants rate)[x]? = some u) (hlate : 2 * l.cuts.length ≤ x) :
    state.2[u]? = population[u]? := by
  refine h.untouched u fun hmem => ?_
  obtain ⟨y, hy⟩ := List.mem_iff_getElem?.mp hmem
  rw [List.getElem?_take] at hy
  split at hy
  case isTrue hlt =>
    have hne : x ≠ y := Nat.ne_of_gt (Nat.lt_of_lt_of_le hlt hlate)
    exact Lottery.ne_of_participants hx hy hne rfl
  case isFalse => cases hy

theorem not_mem_participants (h : Underway rate n population i l state) :
    i ∉ l.participants rate := by
  intro hmem
  have hlt := Lottery.lt_of_mem_participants hmem
  rw [h.lots_length] at hlt
  exact Nat.lt_irrefl i hlt

theorem eq_of_next (h : Underway rate n population i l state) : state.2[i]? = population[i]? :=
  h.untouched i fun hmem => h.not_mem_participants (List.mem_of_mem_take hmem)

theorem stays_out (h : Underway rate n population i l state) (hlot : ¬ lot < rate) :
    Underway rate n population (i + 1) ⟨l.lots ++ [lot], l.cuts⟩ state := by
  have hparticipants : Lottery.participants rate ⟨l.lots ++ [lot], l.cuts⟩ =
      l.participants rate := Lottery.participants_append_of_not_lt hlot
  constructor
  case lots_length => rw [List.length_append, h.lots_length, List.length_singleton]
  case cuts_length => rw [hparticipants, h.cuts_length]
  case waiting_eq => rw [hparticipants, h.waiting_eq]
  case mated =>
    rw [hparticipants]
    exact h.mated
  case untouched =>
    rw [hparticipants]
    exact h.untouched
  case scores_eq => exact h.scores_eq

theorem waits (h : Underway rate n population i l state) (hlot : lot < rate)
    (hnobody : state.1 = none) :
    Underway rate n population (i + 1) ⟨l.lots ++ [lot], l.cuts⟩ (some i, state.2) := by
  have hparticipants : Lottery.participants rate ⟨l.lots ++ [lot], l.cuts⟩ =
      l.participants rate ++ [i] := by
    rw [Lottery.participants_append_of_lt hlot, h.lots_length]
  have heven : (l.participants rate).length = 2 * l.cuts.length := by
    have hle := List.getElem?_eq_none_iff.mp (h.waiting_eq.symm.trans hnobody)
    have hcuts := h.cuts_length
    omega
  constructor
  case lots_length => rw [List.length_append, h.lots_length, List.length_singleton]
  case cuts_length =>
    rw [hparticipants, List.length_append, heven, List.length_singleton]
    dsimp only
    omega
  case waiting_eq => rw [hparticipants, ← heven, List.getElem?_concat_length]
  case mated =>
    rw [hparticipants]
    intro k u v hu hv
    -- the newcomer is at an even place, so it is not the second of a pair
    have hlt : 2 * k + 1 < (l.participants rate).length := by
      obtain ⟨hlt, -⟩ := List.getElem?_eq_some_iff.mp hv
      rw [List.length_append, List.length_singleton] at hlt
      omega
    rw [List.getElem?_append_left (Nat.lt_of_succ_lt hlt)] at hu
    rw [List.getElem?_append_left hlt] at hv
    exact h.mated k u v hu hv
  case untouched =>
    rw [hparticipants, List.take_append_of_le_length (Nat.le_of_eq heven.symm)]
    exact h.untouched
  case scores_eq => exact h.scores_eq

theorem joins (h : Underway rate n population i l state) (hlot : lot < rate)
    (hmate : state.1 = some mate) {a b : Chromosome α} (ha : population[mate]? = some a)
    (hb : population[i]? = some b) {cut : Nat × Nat} (hcut : cut.1 ≤ cut.2 ∧ cut.2 < n)
    {children : List Nat × List Nat}
    (hcross : crossoverAt a.genes b.genes cut.1 cut.2 = .ok children) :
    Underway rate n population (i + 1) ⟨l.lots ++ [lot], l.cuts ++ [cut]⟩
      (none, (state.2.set mate { a with genes := children.1 }).set i
        { b with genes := children.2 }) := by
  set l' : Lottery α := ⟨l.lots ++ [lot], l.cuts ++ [cut]⟩ with hl'
  have hparticipants : l'.participants rate = l.participants rate ++ [i] := by
    rw [hl', Lottery.participants_append_of_lt hlot, h.lots_length]
  have hwaiting : (l.participants rate)[2 * l.cuts.length]? = some mate :=
    h.waiting_eq.symm.trans hmate
  have hodd : (l.participants rate).length = 2 * l.cuts.length + 1 := by
    obtain ⟨hlt, -⟩ := List.getElem?_eq_some_iff.mp hwaiting
    have hcuts := h.cuts_length
    omega
  have hlength : (l'.participants rate).length = 2 * l.cuts.length + 2 := by
    rw [hparticipants, List.length_append, hodd, List.length_singleton]
  have hfirst : (l'.participants rate)[2 * l.cuts.length]? = some mate := by
    rw [hparticipants, List.getElem?_append_left (hodd ▸ Nat.lt_succ_self _), hwaiting]
  have hsecond : (l'.participants rate)[2 * l.cuts.length + 1]? = some i := by
    rw [hparticipants, ← hodd, List.getElem?_concat_length]
  have hapart : mate ≠ i := Lottery.ne_of_participants hfirst hsecond (Nat.ne_of_lt (by omega))
  have holda : state.2[mate]? = some a := (h.eq_of_ne hwaiting le_rfl).trans ha
  have holdb : (state.2.set mate { a with genes := children.1 })[i]? = some b := by
    rw [List.getElem?_set_ne hapart, h.eq_of_next, hb]
  have hkept : ∀ u, mate ≠ u → i ≠ u →
      ((state.2.set mate { a with genes := children.1 }).set i
        { b with genes := children.2 })[u]? = state.2[u]? := by
    intro u hmateu hiu
    rw [List.getElem?_set_ne hiu, List.getElem?_set_ne hmateu]
  constructor
  case lots_length => rw [hl', List.length_append, h.lots_length, List.length_singleton]
  case cuts_length =>
    rw [hlength, hl', List.length_append, List.length_singleton]
    omega
  case waiting_eq =>
    rw [eq_comm, List.getElem?_eq_none_iff, hlength, hl', List.length_append,
      List.length_singleton]
    omega
  case mated =>
    intro k u v hu hv
    obtain ⟨hlt, -⟩ := List.getElem?_eq_some_iff.mp hv
    rw [hlength] at hlt
    rcases Nat.lt_or_ge k l.cuts.length with hk | hk
    · have hold (x : Nat) (hx : x < (l.participants rate).length) :
          (l'.participants rate)[x]? = (l.participants rate)[x]? := by
        rw [hparticipants, List.getElem?_append_left hx]
      obtain ⟨cut', hcut', hmated⟩ := h.mated k u v (by rw [← hold _ (by omega), hu])
        (by rw [← hold _ (by omega), hv])
      refine ⟨cut', by rw [hl', List.getElem?_append_left hk, hcut'], hmated.congr ?_ ?_⟩
      · exact hkept u (Lottery.ne_of_participants hfirst hu (by omega))
          (Lottery.ne_of_participants hsecond hu (by omega))
      · exact hkept v (Lottery.ne_of_participants hfirst hv (by omega))
          (Lottery.ne_of_participants hsecond hv (by omega))
    · obtain rfl : k = l.cuts.length := by omega
      obtain rfl : mate = u := Option.some_inj.mp (hfirst.symm.trans hu)
      obtain rfl : i = v := Option.some_inj.mp (hsecond.symm.trans hv)
      refine ⟨cut, by rw [hl', List.getElem?_concat_length], a, b, children, hcut.1, hcut.2, ha,
        hb, hcross, ?_, ?_⟩
      · obtain ⟨hmateLt, -⟩ := List.getElem?_eq_some_iff.mp holda
        rw [List.getElem?_set_ne hapart.symm, List.getElem?_set_self hmateLt]
      · obtain ⟨hiLt, -⟩ := List.getElem?_eq_some_iff.mp holdb
        rw [List.getElem?_set_self hiLt]
  case untouched =>
    intro u hu
    have hall : (l'.participants rate).length ≤ 2 * l'.cuts.length := by
      rw [hlength, hl', List.length_append, List.length_singleton]
      omega
    rw [List.take_of_length_le hall] at hu
    have hmateu : mate ≠ u := fun heq => hu (heq ▸ List.mem_of_getElem? hfirst)
    have hiu : i ≠ u := fun heq => hu (heq ▸ List.mem_of_getElem? hsecond)
    rw [hkept u hmateu hiu]
    refine h.untouched u fun hmem => hu ?_
    rw [hparticipants]
    exact List.mem_append_left _ (List.mem_of_mem_take hmem)
  case scores_eq =>
    rw [map_set_of_getElem? holdb (by rfl), map_set_of_getElem? holda (by rfl), h.scores_eq]

theorem paired (h : Underway rate n population i l state) :
    Paired rate n population l state.2 where
  mated := h.mated
  bystander u hu := h.untouched u fun hmem => hu (List.mem_of_mem_take hmem)
  unpaired k u hu hnone := by
    have hle := List.getElem?_eq_none_iff.mp hnone
    have hcuts := h.cuts_length
    exact h.eq_of_ne hu (by omega)
  scores_eq := h.scores_eq

variable [Source γ α] [BoundedIndex γ] [ComparableScalar α] [UniformDraws γ]

theorem pairUp (h : Underway rate n population i l state) (hn : 0 < n)
    (hbred : Bred n size population) (hi : i < size) (hrate : Scalar.isNaN rate = false) :
    Draw.Agree (Underway rate n population (i + 1)) (l.extend rate n : Draw γ (Lottery α))
      (GeneticSearch.pairUp rate state i) := by
  refine (Draw.Agree.of_yields Draw.unit_mem_yields).bind ?_
  rintro _ lot ⟨rfl, hzero, -⟩
  have hlotNumber := ComparableScalar.isNaN_right hzero
  have hcuts := h.cuts_length
  by_cases hlot : lot < rate
  case neg =>
    rw [if_pos (ComparableScalar.le_of_not_lt hrate hlotNumber hlot), if_neg]
    · exact .pure (h.stays_out hlot)
    · rw [Lottery.participants_append_of_not_lt hlot]
      omega
  have hin : ¬ rate ≤ lot := fun hle => ((ComparableScalar.le_iff_not_lt _ _).mp hle).2.2 hlot
  dsimp only
  rw [if_neg hin, Lottery.participants_append_of_lt hlot, List.length_append,
    List.length_singleton]
  have hwaiting := h.waiting_eq
  cases hmate : state.1 with
  | none =>
    rw [hmate] at hwaiting
    have hle := List.getElem?_eq_none_iff.mp hwaiting.symm
    rw [if_neg (by omega)]
    exact .pure (h.waits hlot hmate)
  | some mate =>
    rw [hmate] at hwaiting
    obtain ⟨hlt, -⟩ := List.getElem?_eq_some_iff.mp hwaiting.symm
    have hmateLt : mate < size :=
      Nat.lt_trans (h.lots_length ▸ Lottery.lt_of_mem_participants
        (List.mem_of_getElem? hwaiting.symm)) hi
    obtain ⟨a, ha, hpa⟩ := hbred.exists_member hmateLt
    obtain ⟨b, hb, hpb⟩ := hbred.exists_member hi
    have hlength := Tour.length_of_perm hpa
    rw [if_pos (by omega)]
    dsimp only
    rw [Draw.demand_bind_of_eq ((h.eq_of_ne hwaiting.symm le_rfl).trans ha),
      Draw.demand_bind_of_eq (h.eq_of_next.trans hb), Genetic.crossover, hlength,
      if_neg (Nat.ne_of_gt hn), bind_assoc]
    refine (Draw.Agree.of_yields (randomSegment_yields hn)).bind ?_
    rintro _ ⟨first, last⟩ ⟨rfl, hcut⟩
    obtain ⟨children, hcross, -⟩ := crossoverAt_yields hpa hpb hcut.1 hcut.2
    dsimp only at hcross ⊢
    rw [hcross]
    exact .pure (h.joins hlot hmate ha hb hcut hcross)

end Underway

theorem crossoverRate_of_validate {config : Config α} (h : config.validate = .ok ()) :
    0 ≤ config.crossoverRate ∧ config.crossoverRate ≤ 1 := by
  obtain ⟨_, -, h⟩ := bind_eq_ok.mp h
  obtain ⟨_, -, h⟩ := bind_eq_ok.mp h
  obtain ⟨_, hrate, -⟩ := bind_eq_ok.mp h
  exact Requirement.rate_eq_ok.mp hrate

variable [Source γ α] [BoundedIndex γ] [ComparableScalar α] [UniformDraws γ] {n size : Nat}
  {population : List (Chromosome α)}

theorem crossover_agree {rate : α} (hn : 0 < n) (hbred : Bred n size population)
    (hrate : Scalar.isNaN rate = false) :
    Draw.Agree (fun l crossed => l.lots.length = size ∧ Paired rate n population l crossed)
      (Lottery.draw rate n size : Draw γ (Lottery α)) (crossover rate population) := by
  rw [Lottery.draw, ← bind_pure ((List.range size).foldlM _ _), crossover, hbred.length_eq]
  refine (Draw.Agree.foldlM_range (Underway rate n population) (.start rate n population) size
    fun i hi l state h => h.pairUp hn hbred hi hrate).bind fun l state h => .pure ?_
  exact ⟨h.lots_length, h.paired⟩

/-- A pass of crossover is the pairing of the participants, all at once, by lots and segments that
are drawn without the population. -/
theorem crossover_pairs_originals {config : Config α} (hconfig : config.validate = .ok ())
    (hn : 0 < n) (hperm : ∀ c ∈ population, c.genes.Perm (List.range n)) (g : γ) :
    ∃ l crossed g', (Lottery.draw config.crossoverRate n population.length).run g = .ok (l, g') ∧
      (crossover config.crossoverRate population).run g = .ok (crossed, g') ∧
      l.lots.length = population.length ∧ Paired config.crossoverRate n population l crossed := by
  have hbred : Bred n population.length population := ⟨rfl, hperm⟩
  have hrate := ComparableScalar.isNaN_right (crossoverRate_of_validate hconfig).1
  obtain ⟨⟨crossed, g'⟩, hcrossed, -⟩ := crossover_yields hn config.crossoverRate hbred g
  have hagree := crossover_agree hn hbred hrate g
  rw [hcrossed] at hagree
  generalize (Lottery.draw config.crossoverRate n population.length).run g = drawn at hagree ⊢
  cases hagree with
  | @ok drawn _ h =>
    obtain ⟨l, g''⟩ := drawn
    obtain ⟨⟨hlots, hpaired⟩, rfl⟩ := h
    exact ⟨l, crossed, g'', rfl, hcrossed, hlots, hpaired⟩

def fiveMembers : List (Chromosome Float) :=
  [⟨[0, 1, 2, 3], 4, 0.25⟩, ⟨[3, 1, 0, 2], 5, 0.2⟩, ⟨[1, 2, 3, 0], 8, 0.125⟩,
    ⟨[2, 3, 1, 0], 10, 0.1⟩, ⟨[3, 2, 1, 0], 16, 0.0625⟩]

theorem crossover_pairs_originals_fiveMembers :
    ∃ l crossed g', l.participants 0.5 = [0, 2, 4] ∧
      (crossover 0.5 fiveMembers).run (Generator.ofSeed 9) = .ok (crossed, g') ∧
      Paired 0.5 4 fiveMembers l crossed := by
  have hconfig : (⟨5, 1, 0.5, 0.1, 0.1, 9⟩ : Config Float).validate = .ok () := by
    obtain ⟨_, h⟩ := exists_eq_ok (x := (⟨5, 1, 0.5, 0.1, 0.1, 9⟩ : Config Float).validate)
      (by decide +kernel)
    exact h
  have hperm : ∀ c ∈ fiveMembers, c.genes.Perm (List.range 4) := by
    simp only [fiveMembers, List.forall_mem_cons]
    decide
  have hparticipants : ((Lottery.draw (0.5 : Float) 4 5).run (Generator.ofSeed 9)).map
      (fun drawn => drawn.1.participants 0.5) = .ok [0, 2, 4] := by
    decide +kernel
  obtain ⟨l, crossed, g', hdraw, hcrossed, -, hpaired⟩ :=
    crossover_pairs_originals hconfig (by decide : 0 < 4) hperm (Generator.ofSeed 9)
  refine ⟨l, crossed, g', ?_, hcrossed, hpaired⟩
  have hdrawn := (congrArg (Except.map fun drawn => drawn.1.participants 0.5) hdraw).symm.trans
    hparticipants
  exact Except.ok.inj hdrawn

end GeneticSearch
end PopulationSearch
