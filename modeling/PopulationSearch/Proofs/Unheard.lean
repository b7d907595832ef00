import PopulationSearch.Proofs.DoubleLaws
import PopulationSearch.Proofs.VectorOptimum

/-! Values that are no numbers. Nothing is fitter than such a value, so a slot that begins with one
hears none of the candidates that contest it. -/

namespace PopulationSearch

variable {σ α : Type} {fitter : α → α → Bool}

structure RanksNumbers [Scalar α] (fitter : α → α → Bool) : Prop extends Ranks fitter where
  numbers : ∀ a b, fitter a b = true → Scalar.isNaN a = false ∧ Scalar.isNaN b = false

theorem Direction.ranksNumbers [Scalar α] [ComparableScalar α] (d : Direction) :
    RanksNumbers (d.isFitter : α → α → Bool) where
  toRanks := d.ranks
  numbers := by
    intro a b h
    cases d with
    | minimize => exact ComparableScalar.isNaN_of_lt a b (of_decide_eq_true h)
    | maximize => exact (ComparableScalar.isNaN_of_lt b a (of_decide_eq_true h)).symm

namespace Standing

variable {s : Standing σ α}

def contests (fitter : α → α → Bool) (entries : List (Best σ α × Nat)) (s : Standing σ α) :
    Standing σ α :=
  entries.foldl (fun s entry => s.contest fitter entry.2 entry.1) s

variable [Scalar α] {first : List (Best σ α)} {entries : List (Best σ α × Nat)}

/-- Slots that began with a number hold a number that does not beat the best, and the best leads all
candidates of theirs. -/
structure Heard (fitter : α → α → Bool) (first : List (Best σ α)) (entries : List (Best σ α × Nat))
    (s : Standing σ α) : Prop where
  length_slots : s.slots.length = first.length
  slot : ∀ c i, (c, i) ∈ entries → i < first.length
  deaf : ∀ (i : Nat) (b : Best σ α), first[i]? = some b → Scalar.isNaN b.quality = true →
    s.slots[i]? = some b
  holder : ∀ (i : Nat) (b : Best σ α), first[i]? = some b → Scalar.isNaN b.quality = false →
    ∃ b', s.slots[i]? = some b' ∧ Scalar.isNaN b'.quality = false ∧
      fitter b'.quality s.best.quality = false
  stuck : ∀ b, first[0]? = some b → Scalar.isNaN b.quality = true → s.best = b
  number : ∀ b, first[0]? = some b → Scalar.isNaN b.quality = false →
    Scalar.isNaN s.best.quality = false
  mem : ∃ i, (s.best, i) ∈ entries
  unbeaten : ∀ c i b, (c, i) ∈ entries → first[i]? = some b → Scalar.isNaN b.quality = false →
    fitter c.quality s.best.quality = false

theorem Heard.append (h : s.Heard fitter first entries) {c : Best σ α} {i : Nat}
    (hi : i < first.length) (hc : ∀ b, first[i]? = some b → Scalar.isNaN b.quality = false →
      fitter c.quality s.best.quality = false) : s.Heard fitter first (entries ++ [(c, i)]) where
  length_slots := h.length_slots
  slot := by
    intro c' j hmem
    rcases List.mem_append.mp hmem with hold | hnew
    · exact h.slot c' j hold
    · cases List.mem_singleton.mp hnew
      exact hi
  deaf := h.deaf
  holder := h.holder
  stuck := h.stuck
  number := h.number
  mem := by
    obtain ⟨j, hj⟩ := h.mem
    exact ⟨j, List.mem_append_left _ hj⟩
  unbeaten := by
    intro c' j b hmem hb hnumber
    rcases List.mem_append.mp hmem with hold | hnew
    · exact h.unbeaten c' j b hold hb hnumber
    · cases List.mem_singleton.mp hnew
      exact hc b hb hnumber

theorem Heard.replace (hrank : RanksNumbers fitter) (h : s.Heard fitter first entries)
    {c old : Best σ α} {i : Nat} (hslot : s.slots[i]? = some old)
    (hfitter : fitter c.quality old.quality = true) :
    (Standing.mk (s.slots.set i c) (s.best.offer fitter c.solution c.quality)).Heard fitter first
      (entries ++ [(c, i)]) := by
  obtain ⟨hcnumber, holdnumber⟩ := hrank.numbers _ _ hfitter
  have hi : i < s.slots.length := (List.getElem?_eq_some_iff.mp hslot).1
  have hbetter {x : α} (hx : fitter x s.best.quality = false) :
      fitter x (s.best.offer fitter c.solution c.quality).quality = false :=
    Best.not_fitter_offer hrank.toRanks hx
  have hself : fitter c.quality (s.best.offer fitter c.solution c.quality).quality = false :=
    Best.offered_not_fitter hrank.toRanks
  constructor
  case length_slots => exact List.length_set.trans h.length_slots
  case slot =>
    intro c' j hmem
    rcases List.mem_append.mp hmem with hold | hnew
    · exact h.slot c' j hold
    · cases List.mem_singleton.mp hnew
      rwa [← h.length_slots]
  case deaf =>
    intro j b hb hnan
    rcases eq_or_ne i j with rfl | hne
    · cases hslot.symm.trans (h.deaf i b hb hnan)
      simp [hnan] at holdnumber
    · rw [List.getElem?_set_ne hne, h.deaf j b hb hnan]
  case holder =>
    intro j b hb hnumber
    rcases eq_or_ne i j with rfl | hne
    · exact ⟨c, List.getElem?_set_self hi, hcnumber, hself⟩
    · obtain ⟨b', hb', hnumber', hle⟩ := h.holder j b hb hnumber
      exact ⟨b', by rw [List.getElem?_set_ne hne, hb'], hnumber', hbetter hle⟩
  case stuck =>
    intro b hb hnan
    cases h.stuck b hb hnan
    -- the best is no number, and the candidate is not fitter than that
    refine if_neg fun hbeats => ?_
    simp [(hrank.numbers _ _ hbeats).2] at hnan
  case number =>
    intro b hb hnumber
    exact Best.offer_of (P := fun b => Scalar.isNaN b.quality = false) (h.number b hb hnumber)
      fitter hcnumber
  case mem =>
    obtain ⟨j, hj⟩ := h.mem
    refine Best.offer_of (P := fun b => ∃ j, (b, j) ∈ entries ++ [(c, i)])
      ⟨j, List.mem_append_left _ hj⟩ fitter ⟨i, ?_⟩
    exact List.mem_append_right _ (List.mem_singleton_self _)
  case unbeaten =>
    intro c' j b hmem hb hnumber
    rcases List.mem_append.mp hmem with hold | hnew
    · exact hbetter (h.unbeaten c' j b hold hb hnumber)
    · cases List.mem_singleton.mp hnew
      exact hself

theorem Heard.contest (hrank : RanksNumbers fitter) (h : s.Heard fitter first entries)
    (c : Best σ α) {i : Nat} (hi : i < first.length) :
    (s.contest fitter i c).Heard fitter first (entries ++ [(c, i)]) := by
  obtain ⟨old, hslot⟩ : ∃ old, s.slots[i]? = some old := by
    rw [← h.length_slots] at hi
    exact ⟨_, List.getElem?_eq_getElem hi⟩
  cases hfitter : fitter c.quality old.quality with
  | true =>
    rw [contest_of_fitter hslot hfitter]
    exact h.replace hrank hslot hfitter
  | false =>
    rw [contest_of_not_fitter hslot hfitter]
    refine h.append hi fun b hb hnumber => ?_
    obtain ⟨b', hb', hnumber', hle⟩ := h.holder i b hb hnumber
    cases hslot.symm.trans hb'
    by_contra hbeats
    rw [Bool.not_eq_false] at hbeats
    rcases hrank.split _ _ _ hnumber' hbeats with hlost | hbest
    · simp [hfitter] at hlost
    · simp [hle] at hbest

theorem Heard.contests (hrank : RanksNumbers fitter) (h : s.Heard fitter first entries)
    {more : List (Best σ α × Nat)} (hmore : ∀ entry ∈ more, entry.2 < first.length) :
    (s.contests fitter more).Heard fitter first (entries ++ more) := by
  induction more generalizing s entries with
  | nil => simpa [Standing.contests] using h
  | cons entry more ih =>
    obtain ⟨hentry, hmore⟩ := List.forall_mem_cons.mp hmore
    rw [List.append_cons]
    exact ih (h.contest hrank entry.1 hentry) hmore

theorem Heard.generation (hrank : RanksNumbers fitter) {batches : List (List (Best σ α))}
    (h : s.Heard fitter first (batches.flatMap List.zipIdx)) {batch : List (Best σ α)}
    (hlength : batch.length = s.slots.length) :
    (s.contests fitter batch.zipIdx).Heard fitter first
      ((batches ++ [batch]).flatMap List.zipIdx) := by
  rw [List.flatMap_append, List.flatMap_singleton]
  refine h.contests hrank fun entry hentry => ?_
  rw [← h.length_slots, ← hlength]
  exact List.snd_lt_of_mem_zipIdx hentry

theorem Heard.leads {batches : List (List (Best σ α))}
    (h : s.Heard fitter first (batches.flatMap List.zipIdx))
    (hfirst : ∀ b ∈ first, Scalar.isNaN b.quality = false) :
    Scalar.isNaN s.best.quality = false ∧ s.best.Leads fitter batches.flatten := by
  have hflatten : batches.flatten = (batches.flatMap List.zipIdx).map Prod.fst := by
    simp [List.map_flatMap, List.zipIdx_map_fst]
  obtain ⟨i, hi⟩ := h.mem
  have hpos : 0 < first.length := Nat.zero_lt_of_lt (h.slot _ i hi)
  rw [hflatten]
  refine ⟨?_, List.mem_map_of_mem hi, fun c hc => ?_⟩
  · exact h.number _ (List.getElem?_eq_getElem hpos) (hfirst _ (List.getElem_mem hpos))
  · obtain ⟨⟨c, j⟩, hj, rfl⟩ := List.mem_map.mp hc
    have hlt := h.slot c j hj
    exact h.unbeaten c j _ hj (List.getElem?_eq_getElem hlt) (hfirst _ (List.getElem_mem hlt))

theorem heard_of_leader? (hrank : RanksNumbers fitter) {β : Type} (value : β → α) {l : List β}
    {i : Nat} {x : β} (hslots : s.slots.map (·.quality) = l.map value)
    (hleader : leader? (fun a b => fitter (value a) (value b)) l = some (i, x))
    (hbest : s.slots[i]? = some s.best) : s.Heard fitter s.slots s.slots.zipIdx := by
  have hquality : value x = s.best.quality := by
    have hi := congrArg (·[i]?) hslots
    simpa [hbest, getElem?_of_leader? _ hleader] using hi.symm
  have hunbeaten : ∀ b ∈ s.slots, fitter b.quality s.best.quality = false := by
    intro b hb
    obtain ⟨y, hy, hby⟩ := List.mem_map.mp (hslots ▸ List.mem_map_of_mem hb)
    rw [← hby, ← hquality]
    exact unbeaten_of_leader? (fun a b => fitter (value a) (value b)) (fun y => hrank.irrefl _)
      (fun x y z => hrank.trans _ _ _) hleader y hy
  have hhead : ∀ b, s.slots[0]? = some b → ∃ y ys, l = y :: ys ∧ value y = b.quality := by
    intro b hb
    cases l with
    | nil => cases hleader
    | cons y ys =>
      have hzero := congrArg (·[0]?) hslots
      simp only [List.getElem?_map, hb, List.getElem?_cons_zero, Option.map_some,
        Option.some.injEq] at hzero
      exact ⟨y, ys, rfl, hzero.symm⟩
  constructor
  case length_slots => rfl
  case slot => exact fun c i hmem => List.snd_lt_of_mem_zipIdx hmem
  case deaf => exact fun i b hb _ => hb
  case holder => exact fun i b hb hnumber => ⟨b, hb, hnumber, hunbeaten b (List.mem_of_getElem? hb)⟩
  case stuck =>
    intro b hb hnan
    obtain ⟨y, ys, rfl, hy⟩ := hhead b hb
    have hfirst : ∀ z, fitter (value z) (value y) = false := by
      intro z
      by_contra hbeats
      rw [Bool.not_eq_false] at hbeats
      simp [← hy, (hrank.numbers _ _ hbeats).2] at hnan
    rw [leader?_of_unbeatable _ hfirst] at hleader
    cases hleader
    exact Option.some.inj (hbest.symm.trans hb)
  case number =>
    intro b hb hnumber
    obtain ⟨y, ys, rfl, hy⟩ := hhead b hb
    rw [← hy] at hnumber
    rw [← hquality]
    exact leader?_satisfies _ (P := fun y => Scalar.isNaN (value y) = false) hnumber
      (fun y z hbeats => (hrank.numbers _ _ hbeats).1) hleader
  case mem => exact ⟨i, List.mk_mem_zipIdx_iff_getElem?.mpr hbest⟩
  case unbeaten =>
    intro c i b hmem _ _
    exact hunbeaten c (List.mem_of_getElem? (List.mk_mem_zipIdx_iff_getElem?.mp hmem))

end Standing

variable {γ : Type} [Scalar α] [Source γ α] {o : Objective α}

namespace DifferentialSearch

variable {s s' : DifferentialSearch γ α}

theorem standing_of_visits (hlen : s.population.length = s.values.length) {slots : List Nat}
    {batch : List (Best (List α) α)} (hvisits : slots.foldlM visit s = .ok s')
    (hbatch : contenders slots s = .ok batch) :
    s'.standing = s.standing.contests s.objective.isFitter (batch.zip slots) ∧ s.SameTask s' ∧
      batch.length = slots.length := by
  induction slots generalizing s batch with
  | nil =>
    cases hvisits
    cases hbatch
    exact ⟨rfl, ⟨rfl, rfl, rfl, rfl⟩, rfl⟩
  | cons i slots ih =>
    rw [List.foldlM_cons] at hvisits
    obtain ⟨s₁, hfirst, hrest⟩ := bind_eq_ok.mp hvisits
    obtain ⟨c, hc, hvisit⟩ := visit_ensures hlen i s₁ hfirst
    rw [contenders, hc, ok_bind, hfirst, ok_bind] at hbatch
    obtain ⟨batch, htail, hbatch⟩ := bind_eq_ok.mp hbatch
    cases hbatch
    have hlen₁ : s₁.population.length = s₁.values.length := by
      rw [hvisit.task.length_population, hvisit.task.length_values, hlen]
    obtain ⟨hstanding, htask, hlength⟩ := ih hlen₁ hrest htail
    refine ⟨?_, hvisit.task.trans htask, congrArg (· + 1) hlength⟩
    rw [hstanding, hvisit.standing, hvisit.task.objective]
    rfl

theorem standing_of_evaluates (hlen : s.population.length = s.values.length)
    {batch : List (Best (List α) α)} (h : Evaluates s batch s') :
    s'.standing = s.standing.contests s.objective.isFitter batch.zipIdx ∧ s.SameTask s' ∧
      batch.length = s.standing.slots.length := by
  obtain ⟨hstep, hbatch⟩ := h
  obtain ⟨s₁, hvisits, hs'⟩ := bind_eq_ok.mp hstep
  obtain ⟨hstanding, htask, hlength⟩ := standing_of_visits hlen hvisits hbatch
  cases hs'
  rw [List.length_range] at hlength
  refine ⟨?_, { htask with }, by simp [standing, hlength, hlen]⟩
  rw [List.zipIdx_eq_zip_range', hlength, ← List.range_eq_range']
  exact hstanding

theorem heard_of_course (hrank : RanksNumbers o.isFitter) {s₀ : DifferentialSearch γ α}
    {batches : List (List (Best (List α) α))} (ho : s₀.objective = o)
    (hlen : s₀.population.length = s₀.values.length)
    (h₀ : s₀.standing.Heard o.isFitter s₀.standing.slots s₀.standing.slots.zipIdx)
    (h : Course Evaluates finished s₀ batches s) :
    s.standing.Heard o.isFitter s₀.standing.slots
      ((s₀.standing.slots :: batches).flatMap List.zipIdx) := by
  refine (h.keeps (fun batches s => s.objective = o ∧ s.population.length = s.values.length ∧
    s.standing.Heard o.isFitter s₀.standing.slots (batches.flatMap List.zipIdx))
    ⟨ho, hlen, by simpa using h₀⟩ ?_ ?_).2.2
  · rintro batches s batch s' ⟨rfl, hlen, hheard⟩ hevaluates
    obtain ⟨hstanding, htask, hlength⟩ := standing_of_evaluates hlen hevaluates
    refine ⟨htask.objective, ?_, ?_⟩
    · rw [htask.length_population, htask.length_values, hlen]
    · rw [hstanding]
      exact hheard.generation hrank hlength
  · exact fun batches s h => h

theorem start_heard (hrank : RanksNumbers o.isFitter) {config : Differential.Config α} {g : γ}
    (h : start o config g = .ok s) :
    s.standing.Heard o.isFitter s.standing.slots s.standing.slots.zipIdx := by
  obtain ⟨_, -, h⟩ := bind_eq_ok.mp h
  obtain ⟨_, -, h⟩ := bind_eq_ok.mp h
  obtain ⟨⟨population, g'⟩, -, h⟩ := bind_eq_ok.mp h
  obtain ⟨values, hvalues, h⟩ := bind_eq_ok.mp h
  obtain ⟨⟨slot, value⟩, hleader, h⟩ := bind_eq_ok.mp h
  obtain ⟨position, hposition, h⟩ := bind_eq_ok.mp h
  rw [liftM_fault_eq_ok, demand_eq_ok] at hleader hposition
  have hlen := (forall₂_of_mapM_eq_ok hvalues).length_eq
  cases h
  refine Standing.heard_of_leader? hrank id ?_ hleader ?_
  · simp [standing, Function.comp_def, List.map_snd_zip, hlen]
  · exact getElem?_standing.mpr ⟨hposition, getElem?_of_leader? _ hleader⟩

end DifferentialSearch

namespace SwarmSearch

open Swarm

variable {s s' : SwarmSearch γ α}

theorem standing_of_visits (k : Nat) :
    Ensures ((List.range k).foldlM visit s) fun s' => s.SameTask s' ∧
      s'.standing = s.standing.contests s.objective.isFitter (s'.candidates.take k).zipIdx := by
  refine Ensures.foldlM_range (fun k s' => s.SameTask s' ∧
    s'.standing = s.standing.contests s.objective.isFitter (s'.candidates.take k).zipIdx)
    ⟨⟨rfl, rfl, rfl⟩, rfl⟩ k ?_
  rintro i - s' ⟨htask, hstanding⟩ s'' hvisit
  obtain ⟨c, hvisit⟩ := visit_ensures i s'' hvisit
  refine ⟨htask.trans hvisit.task, ?_⟩
  have hlength : (s'.candidates.take i).length = i := by
    have hslot := hvisit.slot
    rw [SwarmSearch.standing, List.length_map] at hslot
    rw [List.length_take, candidates, List.length_map]
    exact Nat.min_eq_left hslot.le
  rw [hvisit.standing, hvisit.take_candidates, List.zipIdx_append, hlength, hstanding,
    htask.objective]
  simp [Standing.contests]

theorem standing_of_evaluates {batch : List (Best (List α) α)} (h : Evaluates s batch s') :
    s'.standing = s.standing.contests s.objective.isFitter batch.zipIdx ∧ s.SameTask s' ∧
      batch.length = s.standing.slots.length := by
  obtain ⟨hstep, rfl⟩ := h
  obtain ⟨s₁, hvisits, hs'⟩ := bind_eq_ok.mp hstep
  obtain ⟨htask, hstanding⟩ := standing_of_visits _ s₁ hvisits
  have hall : s₁.candidates.take s.particles.length = s₁.candidates := by
    apply List.take_of_length_le
    rw [candidates, List.length_map, htask.length_particles]
  rw [hall] at hstanding
  cases hs'
  refine ⟨hstanding, { htask with }, ?_⟩
  simp [candidates, standing, htask.length_particles]

theorem heard_of_course (hrank : RanksNumbers o.isFitter) {s₀ : SwarmSearch γ α}
    {batches : List (List (Best (List α) α))} (ho : s₀.objective = o)
    (h₀ : s₀.standing.Heard o.isFitter s₀.standing.slots s₀.standing.slots.zipIdx)
    (h : Course Evaluates finished s₀ batches s) :
    s.standing.Heard o.isFitter s₀.standing.slots
      ((s₀.standing.slots :: batches).flatMap List.zipIdx) := by
  refine (h.keeps (fun batches s => s.objective = o ∧
    s.standing.Heard o.isFitter s₀.standing.slots (batches.flatMap List.zipIdx))
    ⟨ho, by simpa using h₀⟩ ?_ ?_).2
  · rintro batches s batch s' ⟨rfl, hheard⟩ hevaluates
    obtain ⟨hstanding, htask, hlength⟩ := standing_of_evaluates hevaluates
    refine ⟨htask.objective, ?_⟩
    rw [hstanding]
    exact hheard.generation hrank hlength
  · exact fun batches s h => h

theorem start_heard (hrank : RanksNumbers o.isFitter) {config : Config α} {g : γ}
    (h : start o config g = .ok s) :
    s.standing.Heard o.isFitter s.standing.slots s.standing.slots.zipIdx := by
  obtain ⟨_, -, h⟩ := bind_eq_ok.mp h
  obtain ⟨_, -, h⟩ := bind_eq_ok.mp h
  obtain ⟨⟨particles, g'⟩, -, h⟩ := bind_eq_ok.mp h
  obtain ⟨⟨i, p⟩, hleader, h⟩ := bind_eq_ok.mp h
  rw [liftM_fault_eq_ok, demand_eq_ok] at hleader
  cases h
  refine Standing.heard_of_leader? hrank Particle.bestValue ?_ hleader ?_
  · simp [standing, Function.comp_def, Particle.record]
  · rw [standing, List.getElem?_map, getElem?_of_leader? _ hleader]
    rfl

end SwarmSearch

/-- Slots that began with no number hold on to it, and so does the best if the first slot is one of
these; the best leads the candidates of all other slots. -/
theorem heard_throughout [ComparableScalar α] (objective : Objective α)
    (ho : objective.isFitter = objective.direction.isFitter) (g : γ) (calls : List Call) (k : Nat) :
    (∀ config s₀ s, DifferentialSearch.start objective config g = .ok s₀ →
      DifferentialSearch.after calls k s₀ = .ok s →
      ∃ batches, Course DifferentialSearch.Evaluates DifferentialSearch.finished s₀ batches s ∧
        s.standing.Heard objective.isFitter s₀.standing.slots
          ((s₀.standing.slots :: batches).flatMap List.zipIdx) ∧
        ((∀ b ∈ s₀.standing.slots, Scalar.isNaN b.quality = false) →
          Scalar.isNaN s.progress.best.quality = false ∧
          s.progress.best.Leads objective.isFitter (s₀.standing.slots :: batches).flatten)) ∧
    (∀ config s₀ s, SwarmSearch.start objective config g = .ok s₀ →
      SwarmSearch.after calls k s₀ = .ok s →
      ∃ batches, Course SwarmSearch.Evaluates SwarmSearch.finished s₀ batches s ∧
        s.standing.Heard objective.isFitter s₀.standing.slots
          ((s₀.standing.slots :: batches).flatMap List.zipIdx) ∧
        ((∀ b ∈ s₀.standing.slots, Scalar.isNaN b.quality = false) →
          Scalar.isNaN s.progress.best.quality = false ∧
          s.progress.best.Leads objective.isFitter (s₀.standing.slots :: batches).flatten)) := by
  have hrank : RanksNumbers objective.isFitter := ho ▸ objective.direction.ranksNumbers
  constructor
  · intro config s₀ s hstart hafter
    have hsettled := DifferentialSearch.start_ensures g s₀ hstart
    have hlen := hsettled.kept.length_population.trans hsettled.kept.length_values.symm
    obtain ⟨batches, hcourse⟩ := exists_course DifferentialSearch.Evaluates (fun _ => rfl)
      DifferentialSearch.exists_evaluates calls k s₀ s hafter
    have hheard := DifferentialSearch.heard_of_course hrank hsettled.objective hlen
      (DifferentialSearch.start_heard hrank hstart) hcourse
    exact ⟨batches, hcourse, hheard, hheard.leads⟩
  · intro config s₀ s hstart hafter
    have hsettled := SwarmSearch.start_ensures g s₀ hstart
    obtain ⟨batches, hcourse⟩ := exists_course SwarmSearch.Evaluates (fun _ => rfl)
      (fun s s' hstep => ⟨_, hstep, rfl⟩) calls k s₀ s hafter
    have hheard := SwarmSearch.heard_of_course hrank hsettled.objective
      (SwarmSearch.start_heard hrank hstart) hcourse
    exact ⟨batches, hcourse, hheard, hheard.leads⟩

def rightHalf : Objective Float :=
  .minimizing ⟨[-1], [2]⟩ fun x => match x with
    | v :: _ => .ok (if v < 0 then 0 / 0 else v)
    | [] => .error .undefined

theorem heard_throughout_rightHalf :
    (∃ s₀ s : DifferentialSearch Generator Float, ∃ batches,
      DifferentialSearch.start rightHalf ⟨4, 1, 0.5, 0.9, 4⟩ (Generator.ofSeed 4) = .ok s₀ ∧
      DifferentialSearch.after [.run] 1 s₀ = .ok s ∧
      Course DifferentialSearch.Evaluates DifferentialSearch.finished s₀ batches s ∧
      s.standing.Heard rightHalf.isFitter s₀.standing.slots
        ((s₀.standing.slots :: batches).flatMap List.zipIdx)) ∧
    (∃ s₀ s : DifferentialSearch Generator Float, ∃ batches,
      DifferentialSearch.start rightHalf ⟨4, 1, 0.5, 0.9, 17⟩ (Generator.ofSeed 17) = .ok s₀ ∧
      DifferentialSearch.after [.run] 1 s₀ = .ok s ∧
      Course DifferentialSearch.Evaluates DifferentialSearch.finished s₀ batches s ∧
      Scalar.isNaN s.progress.best.quality = false ∧
      s.progress.best.Leads rightHalf.isFitter (s₀.standing.slots :: batches).flatten) ∧
    (∃ s₀ s : SwarmSearch Generator Float, ∃ batches,
      SwarmSearch.start rightHalf ⟨3, 1, 2, 2, 0.9, 0.2, 1⟩ (Generator.ofSeed 1) = .ok s₀ ∧
      SwarmSearch.after [.run] 1 s₀ = .ok s ∧
      Course SwarmSearch.Evaluates SwarmSearch.finished s₀ batches s ∧
      s.standing.Heard rightHalf.isFitter s₀.standing.slots
        ((s₀.standing.slots :: batches).flatMap List.zipIdx)) ∧
    (∃ s₀ s : SwarmSearch Generator Float, ∃ batches,
      SwarmSearch.start rightHalf ⟨3, 1, 2, 2, 0.9, 0.2, 17⟩ (Generator.ofSeed 17) = .ok s₀ ∧
      SwarmSearch.after [.run] 1 s₀ = .ok s ∧
      Course SwarmSearch.Evaluates SwarmSearch.finished s₀ batches s ∧
      Scalar.isNaN s.progress.best.quality = false ∧
      s.progress.best.Leads rightHalf.isFitter (s₀.standing.slots :: batches).flatten) := by
  have hall (seed : Nat) := heard_throughout rightHalf rfl (Generator.ofSeed seed) [.run] 1
  refine ⟨?_, ?_, ?_, ?_⟩
  · obtain ⟨s₀, hstart, s, hafter⟩ : ∃ s₀ : DifferentialSearch Generator Float,
        DifferentialSearch.start rightHalf ⟨4, 1, 0.5, 0.9, 4⟩ (Generator.ofSeed 4) = .ok s₀ ∧
        ∃ s, DifferentialSearch.after [.run] 1 s₀ = .ok s :=
      exists_eq_ok_and_eq_ok (by decide +kernel)
    obtain ⟨batches, hcourse, hheard, -⟩ := (hall 4).1 _ s₀ s hstart hafter
    exact ⟨s₀, s, batches, hstart, hafter, hcourse, hheard⟩
  · obtain ⟨s₀, hstart, hnumbers, s, hafter, -⟩ :
        Yields (DifferentialSearch.start rightHalf ⟨4, 1, 0.5, 0.9, 17⟩ (Generator.ofSeed 17))
          fun s₀ => (∀ b ∈ s₀.standing.slots, Scalar.isNaN b.quality = false) ∧
            Yields (DifferentialSearch.after [.run] 1 s₀) fun _ => True := by
      decide +kernel
    obtain ⟨batches, hcourse, -, hleads⟩ := (hall 17).1 _ s₀ s hstart hafter
    exact ⟨s₀, s, batches, hstart, hafter, hcourse, hleads hnumbers⟩
  · obtain ⟨s₀, hstart, s, hafter⟩ : ∃ s₀ : SwarmSearch Generator Float,
        SwarmSearch.start rightHalf ⟨3, 1, 2, 2, 0.9, 0.2, 1⟩ (Generator.ofSeed 1) = .ok s₀ ∧
        ∃ s, SwarmSearch.after [.run] 1 s₀ = .ok s :=
      exists_eq_ok_and_eq_ok (by decide +kernel)
    obtain ⟨batches, hcourse, hheard, -⟩ := (hall 1).2 _ s₀ s hstart hafter
    exact ⟨s₀, s, batches, hstart, hafter, hcourse, hheard⟩
  · obtain ⟨s₀, hstart, hnumbers, s, hafter, -⟩ :
        Yields (SwarmSearch.start rightHalf ⟨3, 1, 2, 2, 0.9, 0.2, 17⟩ (Generator.ofSeed 17))
          fun s₀ => (∀ b ∈ s₀.standing.slots, Scalar.isNaN b.quality = false) ∧
            Yields (SwarmSearch.after [.run] 1 s₀) fun _ => True := by
      decide +kernel
    obtain ⟨batches, hcourse, -, hleads⟩ := (hall 17).2 _ s₀ s hstart hafter
    exact ⟨s₀, s, batches, hstart, hafter, hcourse, hleads hnumbers⟩

/-- Numbers that go unheard, one found by a start and one by a generation. -/
theorem unheard_rightHalf :
    Yields (DifferentialSearch.start rightHalf ⟨4, 1, 0.5, 0.9, 7⟩ (Generator.ofSeed 7))
      (fun s => Scalar.isNaN s.progress.best.quality = true ∧
        ∃ v ∈ s.values, Scalar.isNaN v = false) ∧
    Yields (SwarmSearch.start rightHalf ⟨3, 1, 2, 2, 0.9, 0.2, 7⟩ (Generator.ofSeed 7))
      (fun s => Scalar.isNaN s.progress.best.quality = true ∧
        ∃ p ∈ s.particles, Scalar.isNaN p.value = false) ∧
    Yields (DifferentialSearch.start rightHalf ⟨4, 1, 0.5, 0.9, 4⟩ (Generator.ofSeed 4)) fun s =>
      Yields (DifferentialSearch.step s) fun s' =>
        Yields (DifferentialSearch.contenders (List.range s.population.length) s) fun batch =>
          ∃ c ∈ batch, rightHalf.isFitter c.quality s'.progress.best.quality = true := by
  decide +kernel

end PopulationSearch
