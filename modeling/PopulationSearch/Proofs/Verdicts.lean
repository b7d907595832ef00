import Mathlib.Data.Prod.Lex
import PopulationSearch.Proofs.Reliability

/-! Verdicts are put together from checks in their order, and a check of many parts names the least
part that fails. -/

namespace PopulationSearch

variable {α β δ ε ι : Type}

/-- What is accepted, and with which error all else is refused. -/
structure Verdict (α : Type) where
  accepts : Prop
  refuses : Error α → Prop
  exclusive : ∀ e, refuses e → ¬ accepts
  unique : ∀ e e', refuses e → refuses e' → e = e'

namespace Verdict

def require (P : Prop) (e : Error α) : Verdict α where
  accepts := P
  refuses e' := ¬ P ∧ e' = e
  exclusive := fun _ h => h.1
  unique := fun _ _ h h' => h.2.trans h'.2.symm

def requireAll [PartialOrder ι] (members : Set ι) (passes : ι → Prop) (names : ι → Error α → Prop)
    (unique : ∀ i e e', names i e → names i e' → e = e') : Verdict α where
  accepts := ∀ i ∈ members, passes i
  refuses e := ∃ i, IsLeast {i | i ∈ members ∧ ¬ passes i} i ∧ names i e
  exclusive := by
    rintro e ⟨i, ⟨⟨hi, hfails⟩, -⟩, -⟩ hpasses
    exact hfails (hpasses i hi)
  unique := by
    rintro e e' ⟨i, hi, he⟩ ⟨i', hi', he'⟩
    cases hi.unique hi'
    exact unique i e e' he he'

def andThen (v w : Verdict α) : Verdict α where
  accepts := v.accepts ∧ w.accepts
  refuses e := v.refuses e ∨ v.accepts ∧ w.refuses e
  exclusive := by
    rintro e (hv | ⟨-, hw⟩) ⟨hacceptsv, hacceptsw⟩
    · exact v.exclusive e hv hacceptsv
    · exact w.exclusive e hw hacceptsw
  unique := by
    rintro e e' (hv | ⟨haccepts, hw⟩) (hv' | ⟨haccepts', hw'⟩)
    · exact v.unique e e' hv hv'
    · exact absurd haccepts' (v.exclusive e hv)
    · exact absurd haccepts (v.exclusive e' hv')
    · exact w.unique e e' hw hw'

def configured (checked : Except (ConfigError α) Unit) : Verdict α where
  accepts := checked = .ok ()
  refuses e := ∃ cause, checked = .error cause ∧ e = .invalidConfig cause
  exclusive := by
    rintro e ⟨cause, herror, -⟩ hok
    cases herror.symm.trans hok
  unique := by
    rintro e e' ⟨cause, herror, rfl⟩ ⟨cause', herror', rfl⟩
    cases herror.symm.trans herror'
    rfl

structure Decides (v : Verdict α) (x : Except (Rejection α) β) : Prop where
  ok_iff : (∃ y, x = .ok y) ↔ v.accepts
  error_iff : ∀ e, (∃ log, x = .error ⟨.invalid e, log⟩) ↔ v.refuses e
  decided : (∃ y, x = .ok y) ∨ ∃ e log, x = .error ⟨.invalid e, log⟩

/-- The computation succeeds only where the verdict accepts, and refuses only where it refuses. -/
def Heeds (v : Verdict α) (why : ε → Option (Error α)) (x : Except ε β) : Prop :=
  Meets x (fun _ => v.accepts) fun r => ∀ e, why r = some e → v.refuses e

end Verdict

def Failure.refusal? : Failure α → Option (Error α)
  | .invalid e => some e
  | .fault _ => none

def Rejection.refusal? (r : Rejection α) : Option (Error α) := r.failure.refusal?

namespace Verdict.Heeds

variable {v w : Verdict α} {why : ε → Option (Error α)} {x : Except ε β}

theorem andThen {f : β → Except ε δ} (hx : v.Heeds why x) (hf : ∀ y, w.Heeds why (f y)) :
    (v.andThen w).Heeds why (x >>= f) := by
  cases x with
  | error r => exact fun e he => .inl (hx e he)
  | ok y => exact (hf y).mono (fun _ hw => ⟨hx, hw⟩) fun r hr e he => .inr ⟨hx, hr e he⟩

theorem passed (hv : v.accepts) (hx : w.Heeds why x) : (v.andThen w).Heeds why x :=
  hx.mono (fun _ hw => ⟨hv, hw⟩) fun _ hr e he => .inr ⟨hv, hr e he⟩

theorem failed {e : Error α} {r : ε} (hv : v.refuses e) (hr : why r = some e) :
    (v.andThen w).Heeds why (.error r : Except ε β) := by
  intro e' he'
  cases hr.symm.trans he'
  exact .inl hv

theorem of_error {x : Except (Error α) β} (hx : v.Heeds some x) :
    v.Heeds Failure.refusal? (liftM x) := by
  cases x with
  | error e => exact hx
  | ok y => exact hx

theorem of_failure {x : Except (Failure α) β} (hx : v.Heeds Failure.refusal? x) :
    v.Heeds Rejection.refusal? (liftM x) := by
  cases x with
  | error f => exact hx
  | ok y => exact hx

theorem bind_faulty {f : β → Except ε δ} (hx : v.Heeds why x)
    (hf : ∀ y, Meets (f y) (fun _ => True) fun r => why r = none) : v.Heeds why (x >>= f) := by
  refine Meets.bind hx fun y hy => (hf y).mono (fun _ _ => hy) fun r hr e he => ?_
  simp [hr] at he

theorem faulty_bind {f : β → Except ε δ} (hx : Meets x (fun _ => True) fun r => why r = none)
    (hf : ∀ y, v.Heeds why (f y)) : v.Heeds why (x >>= f) := by
  cases x with
  | error r =>
    intro e he
    have hr : why r = none := hx
    simp [hr] at he
  | ok y => exact hf y

theorem decisive {x : Except ε β} (hx : v.Heeds why x)
    (hwhy : ∀ r, x = .error r → ∃ e, why r = some e) :
    ((∃ y, x = .ok y) ↔ v.accepts) ∧ ∀ e, (∃ r, x = .error r ∧ why r = some e) ↔ v.refuses e := by
  cases x with
  | error r =>
    obtain ⟨e, hr⟩ := hwhy r rfl
    have he : v.refuses e := hx e hr
    refine ⟨⟨nofun, fun h => absurd h (v.exclusive e he)⟩, fun e' => ⟨?_, fun h => ?_⟩⟩
    · rintro ⟨r', h, hr'⟩
      cases h
      exact hx e' hr'
    · exact ⟨r, rfl, hr.trans (congrArg some (v.unique e e' he h))⟩
  | ok y =>
    have haccepts : v.accepts := hx
    refine ⟨⟨fun _ => haccepts, fun _ => ⟨y, rfl⟩⟩, fun e => ⟨?_, fun h => ?_⟩⟩
    · rintro ⟨_, h, -⟩
      cases h
    · exact absurd haccepts (v.exclusive e h)

theorem decides {x : Except (Rejection α) β} {I : β → Prop} {R : Fault → Prop}
    (hx : v.Heeds Rejection.refusal? x) (hmeets : Meets x I (Rejection.Blames R))
    (hR : ∀ f, ¬ R f) : v.Decides x := by
  have hinvalid : ∀ r, x = .error r → ∃ e log, r = ⟨.invalid e, log⟩ := by
    rintro r rfl
    exact Rejection.eq_invalid_of_blames hmeets hR
  obtain ⟨hok, herror⟩ := hx.decisive fun r hr => by
    obtain ⟨e, log, rfl⟩ := hinvalid r hr
    exact ⟨e, rfl⟩
  refine ⟨hok, fun e => ?_, ?_⟩
  · rw [← herror]
    constructor
    · rintro ⟨log, hx⟩
      exact ⟨_, hx, rfl⟩
    · rintro ⟨r, hx, hr⟩
      obtain ⟨e', log, rfl⟩ := hinvalid r hx
      cases hr
      exact ⟨log, hx⟩
  · cases x with
    | error r =>
      obtain ⟨e, log, rfl⟩ := hinvalid r rfl
      exact .inr ⟨e, log, rfl⟩
    | ok y => exact .inl ⟨y, rfl⟩

end Verdict.Heeds

section Scans

variable [PartialOrder ι] {key : β → ι} {l : List β}

theorem Verdict.Heeds.mapM {f : β → Except ε δ} {members : Set ι} {passes : ι → Prop}
    {names : ι → Error α → Prop} {unique : ∀ i e e', names i e → names i e' → e = e'}
    {why : ε → Option (Error α)}
    (hl : l.Pairwise fun y z => key y < key z) (hmembers : ∀ i ∈ members, ∃ y ∈ l, key y = i)
    (hf : ∀ y ∈ l, Meets (f y) (fun _ => key y ∈ members → passes (key y))
      fun r => (key y ∈ members ∧ ¬ passes (key y)) ∧ ∀ e, why r = some e → names (key y) e) :
    (Verdict.requireAll members passes names unique).Heeds why (l.mapM f) := by
  have hscan := Meets.mapM_least hl (A := fun y => key y ∈ members → passes (key y))
    (S := fun y r => ∀ e, why r = some e → names (key y) e) fun y hy =>
      (hf y hy).mono (fun _ => id) fun r hr => ⟨Classical.not_imp.mpr hr.1, hr.2⟩
  refine hscan.mono (fun _ hall i hi => ?_) ?_
  · obtain ⟨y, hy, rfl⟩ := hmembers i hi
    exact hall y hy hi
  · rintro r ⟨y, -, hfails, hleast, hr⟩ e he
    refine ⟨key y, ⟨Classical.not_imp.mp hfails, ?_⟩, hr e he⟩
    rintro i ⟨hi, hnot⟩
    obtain ⟨z, hz, rfl⟩ := hmembers i hi
    exact hleast z hz fun h => hnot (h hi)

end Scans

namespace Grid

def edges (n : Nat) : Set (Nat ×ₗ Nat) :=
  {e | (ofLex e).1 < n ∧ (ofLex e).2 < n ∧ (ofLex e).1 ≠ (ofLex e).2}

theorem pairwise_positions (n : Nat) :
    (positions n).Pairwise fun p q => toLex p < toLex q := by
  rw [positions, List.pairwise_flatMap]
  constructor
  · intro i _
    rw [List.pairwise_map]
    refine List.pairwise_lt_range.imp fun {j j'} hlt => ?_
    exact Prod.Lex.toLex_lt_toLex.mpr (.inr ⟨rfl, hlt⟩)
  · refine List.pairwise_lt_range.imp fun hlt p hp q hq => ?_
    obtain ⟨_, -, rfl⟩ := List.mem_map.mp hp
    obtain ⟨_, -, rfl⟩ := List.mem_map.mp hq
    exact Prod.Lex.toLex_lt_toLex.mpr (.inl hlt)

end Grid

section Tours

variable [Scalar α] (d : Distances α)

def Distances.verdict : Verdict α :=
  .andThen (.require (d.cities ≠ 0) .emptyProblem) <|
  .andThen (.require (2 ≤ d.cities) (.tooFewCities 2 d.cities)) <|
  .requireAll (Grid.edges d.cities)
    (fun e => Yields (d.distance (ofLex e).1 (ofLex e).2) fun x => 0 < x ∧ Scalar.isFinite x)
    (fun e error => ∃ x, d.distance (ofLex e).1 (ofLex e).2 = .ok x ∧
      error = .nonPositiveDistance (ofLex e).1 (ofLex e).2 x)
    (by
      rintro e _ _ ⟨x, hx, rfl⟩ ⟨x', hx', rfl⟩
      cases hx.symm.trans hx'
      rfl)

def Distances.weightVerdict [Power α] (beta : α) : Verdict α :=
  .requireAll (Grid.edges d.cities)
    (fun e => Yields (d.distance (ofLex e).1 (ofLex e).2) fun x =>
      Scalar.isFinite (Power.power x (-beta)))
    (fun e error => error = .nonFiniteWeight (ofLex e).1 (ofLex e).2)
    fun _ _ _ h h' => h.trans h'.symm

theorem Distances.validate_heeds : d.verdict.Heeds Failure.refusal? d.validate := by
  simp only [validate]
  split
  case isTrue hempty => exact .failed ⟨not_not.mpr hempty, rfl⟩ rfl
  case isFalse hcities =>
  refine .passed hcities ?_
  split
  case isTrue hfew => exact .failed ⟨Nat.not_le.mpr hfew, rfl⟩ rfl
  case isFalse hmany =>
  refine .passed (Nat.le_of_not_lt hmany) ?_
  rw [forM_eq_mapM_bind]
  refine .bind_faulty ?_ fun _ => .pure trivial
  refine .mapM ((Grid.pairwise_positions d.cities).filter _) (fun e he => ?_) fun p hp => ?_
  · exact ⟨ofLex e, Grid.mem_offDiagonal.mpr he, rfl⟩
  · have hedge : toLex p ∈ Grid.edges d.cities := Grid.mem_offDiagonal.mp hp
    cases hx : d.distance p.1 p.2 with
    | error f => exact ⟨⟨hedge, by simp [Yields, hx]⟩, fun e he => by cases he⟩
    | ok x =>
      simp only [liftM_ok, ok_bind]
      split
      case isTrue hgood => exact fun _ => ⟨x, hx, hgood⟩
      case isFalse hbad =>
        refine ⟨⟨hedge, by simpa [Yields, hx] using hbad⟩, ?_⟩
        rintro _ ⟨⟩
        exact ⟨x, hx, rfl⟩

theorem Distances.visibility_heeds [Power α] (beta : α) :
    (d.weightVerdict beta).Heeds Failure.refusal? (d.visibility beta) := by
  refine .bind_faulty ?_ fun _ => .pure trivial
  refine .mapM (Grid.pairwise_positions d.cities) (fun e he => ?_) fun p hp => ?_
  · exact ⟨ofLex e, Grid.mem_positions.mpr ⟨he.1, he.2.1⟩, rfl⟩
  dsimp only
  split
  case isTrue heq => exact fun hedge => absurd heq hedge.2.2
  case isFalse hne =>
    have hlt := Grid.mem_positions.mp hp
    have hedge : toLex p ∈ Grid.edges d.cities := ⟨hlt.1, hlt.2, hne⟩
    cases hx : d.distance p.1 p.2 with
    | error f => exact ⟨⟨hedge, by simp [Yields, hx]⟩, fun e he => by cases he⟩
    | ok x =>
      simp only [liftM_ok, ok_bind]
      split
      case isTrue hgood => exact fun _ => ⟨x, hx, hgood⟩
      case isFalse hbad =>
        refine ⟨⟨hedge, by simpa [Yields, hx] using hbad⟩, ?_⟩
        rintro _ ⟨⟩
        rfl

end Tours

section Vectors

variable [Scalar α]

def Bounds.verdict (b : Bounds α) : Verdict α :=
  .andThen (.require (b.lower.length = b.upper.length)
    (.dimensionMismatch b.lower.length b.upper.length)) <|
  .andThen (.require (b.dimension ≠ 0) .emptyProblem) <|
  .requireAll {k : Nat | k < b.dimension}
    (fun k => ∀ lo hi, b.lower[k]? = some lo → b.upper[k]? = some hi →
      Interval.Proper lo hi ∧ Scalar.isFinite (hi - lo) = true)
    (fun k error => ∃ lo hi, b.lower[k]? = some lo ∧ b.upper[k]? = some hi ∧
      error = .invalidBounds k lo hi)
    (by
      rintro k _ _ ⟨lo, hi, hlo, hhi, rfl⟩ ⟨lo', hi', hlo', hhi', rfl⟩
      cases hlo.symm.trans hlo'
      cases hhi.symm.trans hhi'
      rfl)

def Objective.verdict (o : Objective α) : Verdict α :=
  .andThen o.bounds.verdict <|
  .require (o.dimension = o.bounds.dimension) (.dimensionMismatch o.dimension o.bounds.dimension)

variable [FiniteArithmetic α]

theorem Interval.isSound_iff {lo hi : α} :
    isSound lo hi = true ↔ Proper lo hi ∧ Scalar.isFinite (hi - lo) = true := by
  refine ⟨proper_of_isSound, fun ⟨h, hwidth⟩ => ?_⟩
  have horder : ¬ hi < lo := ((ComparableScalar.le_iff_not_lt lo hi).mp h.le).2.2
  simp [isSound, h.isFinite_lower, h.isFinite_upper, hwidth, horder]

theorem Bounds.validate_heeds (b : Bounds α) : b.verdict.Heeds some b.validate := by
  unfold validate
  split
  case isTrue hlengths => exact .failed ⟨hlengths, rfl⟩ rfl
  case isFalse hlengths =>
  refine .passed (not_not.mp hlengths) ?_
  split
  case isTrue hempty => exact .failed ⟨by simpa [dimension] using hempty, rfl⟩ rfl
  case isFalse hsome =>
  refine .passed (by simpa [Verdict.require, dimension] using hsome) ?_
  split
  case h_1 lo hi k hfound =>
    obtain ⟨hentry, hbad, hleast⟩ := find?_zipIdx_eq_some hfound
    obtain ⟨hlo, hhi⟩ := getElem?_intervals.mp hentry
    rintro _ ⟨⟩
    refine ⟨k, ⟨⟨(List.getElem?_eq_some_iff.mp hlo).1, fun hsound => ?_⟩, ?_⟩,
      lo, hi, hlo, hhi, rfl⟩
    · simp [Interval.isSound_iff.mpr (hsound lo hi hlo hhi)] at hbad
    · rintro j ⟨-, hfails⟩
      push Not at hfails
      obtain ⟨lo', hi', hlo', hhi', hunsound⟩ := hfails
      refine hleast j (lo', hi') (getElem?_intervals.mpr ⟨hlo', hhi'⟩) ?_
      rw [Bool.not_eq_true', Bool.eq_false_iff]
      intro hsound
      obtain ⟨hproper, hwidth⟩ := Interval.isSound_iff.mp hsound
      exact hunsound hproper hwidth
  case h_2 hnone =>
    intro k _ lo hi hlo hhi
    have hgood := find?_zipIdx_eq_none hnone (getElem?_intervals.mpr ⟨hlo, hhi⟩)
    exact Interval.isSound_iff.mp (by simpa using hgood)

theorem Objective.validate_heeds (o : Objective α) : o.verdict.Heeds some o.validate := by
  refine .andThen o.bounds.validate_heeds fun _ => ?_
  split
  case isTrue hne =>
    rintro _ ⟨⟩
    exact ⟨hne, rfl⟩
  case isFalse heq => exact not_not.mp heq

end Vectors

section Starts

theorem Requirement.configured_heeds (checked : Except (ConfigError α) Unit) :
    (Verdict.configured checked).Heeds Failure.refusal? (configured checked) := by
  cases checked with
  | error cause =>
    rintro _ ⟨⟩
    exact ⟨cause, rfl, rfl⟩
  | ok _ => exact rfl

theorem Meets.faulty (x : Except Fault β) :
    Meets (liftM x : Except (Rejection α) β) (fun _ => True) fun r => r.refusal? = none := by
  cases x with
  | error f => exact rfl
  | ok y => exact trivial

variable {κ γ : Type} [Scalar α] [Source γ α]

theorem Colony.start_heeds [Power α] (config : κ) (numAnts : Nat) (beta : α) (trailOf : α → α)
    (d : Distances α) (g : γ) :
    (d.verdict.andThen (d.weightVerdict beta)).Heeds Rejection.refusal?
      (Colony.start config numAnts beta trailOf d g) := by
  refine .andThen (.of_failure d.validate_heeds) fun _ => ?_
  refine .faulty_bind (.faulty _) fun (walk, g') => ?_
  have hvisible := d.visibility_heeds beta
  dsimp only
  cases hresult : d.visibility beta with
  | error failure =>
    rw [hresult] at hvisible
    exact hvisible
  | ok visible =>
    rw [hresult] at hvisible
    exact hvisible

theorem ColonySystem.start_heeds [Power α] (d : Distances α) (config : Config α) (g : γ) :
    (Verdict.andThen (.configured config.validate)
      (d.verdict.andThen (d.weightVerdict config.beta))).Heeds Rejection.refusal?
      (start d config g) :=
  .andThen (.of_failure (Requirement.configured_heeds _)) fun _ => Colony.start_heeds ..

theorem AntSystem.start_heeds [Power α] (d : Distances α) (config : Config α) (g : γ) :
    (Verdict.andThen (.configured config.validate)
      (d.verdict.andThen (d.weightVerdict config.beta))).Heeds Rejection.refusal?
      (start d config g) :=
  .andThen (.of_failure (Requirement.configured_heeds _)) fun _ => Colony.start_heeds ..

theorem GeneticSearch.start_heeds (d : Distances α) (config : Genetic.Config α) (g : γ) :
    (Verdict.andThen (.configured config.validate) d.verdict).Heeds Rejection.refusal?
      (start d config g) := by
  refine .andThen (.of_failure (Requirement.configured_heeds _)) fun _ => ?_
  refine .bind_faulty (.of_failure d.validate_heeds) fun _ => ?_
  refine (Meets.faulty _).bind fun _ _ => ?_
  refine (Meets.mapM _ fun _ _ => Meets.faulty _).bind fun _ _ => ?_
  exact (Meets.faulty _).bind fun _ _ => .pure trivial

theorem DifferentialSearch.start_heeds [FiniteArithmetic α] (o : Objective α)
    (config : Differential.Config α) (g : γ) :
    (Verdict.andThen (.configured config.validate) o.verdict).Heeds Rejection.refusal?
      (start o config g) := by
  refine .andThen (.of_failure (Requirement.configured_heeds _)) fun _ => ?_
  refine .bind_faulty (.of_failure (.of_error o.validate_heeds)) fun _ => ?_
  refine (Meets.faulty _).bind fun _ _ => ?_
  refine (Meets.mapM _ fun _ _ => Meets.faulty _).bind fun _ _ => ?_
  refine (Meets.faulty _).bind fun _ _ => ?_
  exact (Meets.faulty _).bind fun _ _ => .pure trivial

theorem SwarmSearch.start_heeds [FiniteArithmetic α] (o : Objective α) (config : Swarm.Config α)
    (g : γ) :
    (Verdict.andThen (.configured config.validate) o.verdict).Heeds Rejection.refusal?
      (start o config g) := by
  refine .andThen (.of_failure (Requirement.configured_heeds _)) fun _ => ?_
  refine .bind_faulty (.of_failure (.of_error o.validate_heeds)) fun _ => ?_
  refine (Meets.faulty _).bind fun _ _ => ?_
  exact (Meets.faulty _).bind fun _ _ => .pure trivial

end Starts

/-- Every start decides by its verdict: on the configuration, then on the problem, and for colonies
on the weights of the edges. -/
theorem decided_throughout {γ : Type} [Scalar α] [Source γ α] [BoundedIndex γ] [FaithfulShuffle γ]
    [UniformDraws γ] [DistinctSamples γ] [FiniteArithmetic α] [Power α] (g : γ) :
    (∀ d : Distances α,
      (∀ i < d.cities, ∀ j < d.cities, i ≠ j → ∃ x, d.distance i j = .ok x) →
      (∀ config : ColonySystem.Config α,
        (Verdict.andThen (.configured config.validate)
          (d.verdict.andThen (d.weightVerdict config.beta))).Decides
          (ColonySystem.start d config g)) ∧
      (∀ config : AntSystem.Config α,
        (Verdict.andThen (.configured config.validate)
          (d.verdict.andThen (d.weightVerdict config.beta))).Decides
          (AntSystem.start d config g)) ∧
      ∀ config : Genetic.Config α,
        (Verdict.andThen (.configured config.validate) d.verdict).Decides
          (GeneticSearch.start d config g)) ∧
    ∀ o : Objective α, (∀ x, o.bounds.contains x = true → ∃ v, o.evaluate x = .ok v) →
      (∀ config : Differential.Config α,
        (Verdict.andThen (.configured config.validate) o.verdict).Decides
          (DifferentialSearch.start o config g)) ∧
      ∀ config : Swarm.Config α,
        (Verdict.andThen (.configured config.validate) o.verdict).Decides
          (SwarmSearch.start o config g) := by
  refine ⟨fun d hd => ?_, fun o ho => ?_⟩
  · have hfails := Distances.not_fails hd
    exact ⟨fun config => (ColonySystem.start_heeds d config g).decides
        (ColonySystem.start_meets d config g) hfails,
      fun config => (AntSystem.start_heeds d config g).decides
        (AntSystem.start_meets d config g) hfails,
      fun config => (GeneticSearch.start_heeds d config g).decides
        (GeneticSearch.start_meets d config g) hfails⟩
  · have hfails := Objective.not_failsInside ho
    exact ⟨fun config => (DifferentialSearch.start_heeds o config g).decides
        (DifferentialSearch.start_meets o config g) hfails,
      fun config => (SwarmSearch.start_heeds o config g).decides
        (SwarmSearch.start_meets o config g) hfails⟩

def patchyCities : Distances Float :=
  DistanceTable.toDistances ⟨⟨3, #[0, 1, 0, 0 / 0, 0, 1, 0, 1, 0]⟩⟩

def closeCities : Distances Float :=
  DistanceTable.toDistances ⟨⟨3, #[0, 1, 1, 1, 0, .ofBits 1, 1, .ofBits 1, 0]⟩⟩

theorem decided_throughout_patchyCities :
    letI := unitPower
    patchyCities.verdict.refuses (.nonPositiveDistance 0 2 0) ∧
    closeCities.verdict.accepts ∧ ¬ (closeCities.weightVerdict 1).accepts ∧
    (Landscape.sphere ⟨[0, 2, 0], [1, 1, -1]⟩ : Objective Float).verdict.refuses
      (.invalidBounds 1 2 1) := by
  let := unitPower
  obtain ⟨htours, hvectors⟩ := decided_throughout (Generator.ofSeed 7)
  have hdefined (d : Distances Float) (h : ∀ i < d.cities, ∀ j < d.cities,
      (d.distance i j).toBool = true) :
      ∀ i < d.cities, ∀ j < d.cities, i ≠ j → ∃ x, d.distance i j = .ok x :=
    fun i hi j hj _ => exists_eq_ok (h i hi j hj)
  obtain ⟨-, -, hpatchy⟩ := htours patchyCities (hdefined _ (by decide +kernel))
  obtain ⟨hcolony, -, hgenes⟩ := htours closeCities (hdefined _ (by decide +kernel))
  obtain ⟨hsphere, -⟩ := hvectors (Landscape.sphere ⟨[0, 2, 0], [1, 1, -1]⟩) fun x _ => ⟨_, rfl⟩
  obtain ⟨-, hclose⟩ := (hgenes ⟨6, 2, 0.9, 0.5, 0.3, 7⟩).ok_iff.mp
    (exists_eq_ok (by decide +kernel))
  refine ⟨?_, hclose, fun hweights => ?_, ?_⟩
  · rcases ((hpatchy ⟨6, 2, 0.9, 0.5, 0.3, 7⟩).error_iff _).mp ⟨[], rfl⟩ with
      ⟨_, -, ⟨⟩⟩ | ⟨-, h⟩
    exact h
  · -- the colony does not start, and of its three checks only that of the weights can be why
    obtain ⟨c, hc⟩ := (hcolony ⟨2, 3, 1, 0.5, 0.1, 0.1, 7⟩).ok_iff.mpr ⟨rfl, hclose, hweights⟩
    have hnone : (ColonySystem.start closeCities ⟨2, 3, 1, 0.5, 0.1, 0.1, 7⟩
      (Generator.ofSeed 7)).toBool = false := by decide +kernel
    rw [hc] at hnone
    cases hnone
  · rcases ((hsphere ⟨4, 1, 0.5, 0.9, 7⟩).error_iff (.invalidBounds 1 2 1)).mp ⟨[], rfl⟩ with
      ⟨_, -, ⟨⟩⟩ | ⟨-, h⟩
    exact h

end PopulationSearch
