import PopulationSearch.Proofs.Doubles
import PopulationSearch.Proofs.Twins
import PopulationSearch.Vector.Landscape

/-! The vector searches see values through comparisons only. -/

namespace PopulationSearch

variable {γ α : Type} [Scalar α] [Source γ α] {a b : Objective α}

/-- Both searches have the same vectors and the same source, and each keeps its own values. -/
theorem twins_throughout (halike : a.Alike b) (g : γ) (calls : List Call) (k : Nat) :
    (∀ config,
      Agree (fun s t => DifferentialSearch.Twin a b s t ∧ s.Kept ∧ t.Kept)
        (DifferentialSearch.start a config g) (DifferentialSearch.start b config g) ∧
      ∀ s₀ t₀, DifferentialSearch.start a config g = .ok s₀ →
        DifferentialSearch.start b config g = .ok t₀ →
        Agree (fun s t => DifferentialSearch.Twin a b s t ∧ s.Kept ∧ t.Kept)
          (DifferentialSearch.after calls k s₀) (DifferentialSearch.after calls k t₀)) ∧
    (∀ config,
      Agree (fun s t => SwarmSearch.Twin a b s t ∧ s.Kept ∧ t.Kept)
        (SwarmSearch.start a config g) (SwarmSearch.start b config g) ∧
      ∀ s₀ t₀, SwarmSearch.start a config g = .ok s₀ → SwarmSearch.start b config g = .ok t₀ →
        Agree (fun s t => SwarmSearch.Twin a b s t ∧ s.Kept ∧ t.Kept)
          (SwarmSearch.after calls k s₀) (SwarmSearch.after calls k t₀)) := by
  constructor
  · intro config
    have hstart := DifferentialSearch.start_twin halike config g
    refine ⟨hstart.and_ensures ?_ ?_, fun s₀ t₀ hs₀ ht₀ => ?_⟩
    · exact (DifferentialSearch.start_ensures g).mono fun _ h => h.kept
    · exact (DifferentialSearch.start_ensures g).mono fun _ h => h.kept
    obtain ⟨_, ht, htwin⟩ := hstart.exists_eq_ok hs₀
    cases ht₀.symm.trans ht
    have hsettled := DifferentialSearch.start_ensures g s₀ hs₀
    have hsettled' := DifferentialSearch.start_ensures g t₀ ht₀
    refine (htwin.after halike calls k).and_ensures ?_ ?_
    · exact (DifferentialSearch.after_ensures hsettled calls k).mono fun _ h => h.kept
    · exact (DifferentialSearch.after_ensures hsettled' calls k).mono fun _ h => h.kept
  · intro config
    have hstart := SwarmSearch.start_twin halike config g
    refine ⟨hstart.and_ensures ?_ ?_, fun s₀ t₀ hs₀ ht₀ => ?_⟩
    · exact (SwarmSearch.start_ensures g).mono fun _ h => h.kept
    · exact (SwarmSearch.start_ensures g).mono fun _ h => h.kept
    obtain ⟨_, ht, htwin⟩ := hstart.exists_eq_ok hs₀
    cases ht₀.symm.trans ht
    have hsettled := SwarmSearch.start_ensures g s₀ hs₀
    have hsettled' := SwarmSearch.start_ensures g t₀ ht₀
    refine (htwin.after halike calls k).and_ensures ?_ ?_
    · exact (SwarmSearch.after_ensures hsettled calls k).mono fun _ h => h.kept
    · exact (SwarmSearch.after_ensures hsettled' calls k).mono fun _ h => h.kept

theorem Objective.alike_neg (bounds : Bounds Float) (f : List Float → Except Fault Float) :
    (minimizing bounds f).Alike (maximizing bounds fun x => (fun v => -v) <$> f x) :=
  alike_map bounds f fun _ _ => decide_eq_decide.mpr Binary64.neg_lt_neg_iff

def hill (bounds : Bounds Float) : Objective Float :=
  .maximizing bounds fun x => (fun v => -v) <$> (Landscape.sphere bounds).evaluate x

theorem twins_throughout_hill :
    (∃ s₀ t₀ s t : DifferentialSearch Generator Float,
      DifferentialSearch.start (Landscape.sphere ⟨[-1], [2]⟩) ⟨4, 1, 0.5, 0.9, 7⟩
        (Generator.ofSeed 7) = .ok s₀ ∧
      DifferentialSearch.start (hill ⟨[-1], [2]⟩) ⟨4, 1, 0.5, 0.9, 7⟩
        (Generator.ofSeed 7) = .ok t₀ ∧
      DifferentialSearch.after [.run] 1 s₀ = .ok s ∧ DifferentialSearch.after [.run] 1 t₀ = .ok t ∧
      t.population = s.population ∧ t.source = s.source) ∧
    (∃ s₀ t₀ s t : SwarmSearch Generator Float,
      SwarmSearch.start (Landscape.sphere ⟨[-1], [2]⟩) ⟨3, 1, 2, 2, 0.9, 0.2, 7⟩
        (Generator.ofSeed 7) = .ok s₀ ∧
      SwarmSearch.start (hill ⟨[-1], [2]⟩) ⟨3, 1, 2, 2, 0.9, 0.2, 7⟩
        (Generator.ofSeed 7) = .ok t₀ ∧
      SwarmSearch.after [.run] 1 s₀ = .ok s ∧ SwarmSearch.after [.run] 1 t₀ = .ok t ∧
      t.progress.best.solution = s.progress.best.solution ∧ t.source = s.source) := by
  have halike : (Landscape.sphere ⟨[-1], [2]⟩).Alike (hill ⟨[-1], [2]⟩) :=
    Objective.alike_neg _ _
  have hall := twins_throughout halike (Generator.ofSeed 7) [.run] 1
  constructor
  · obtain ⟨s₀, hs₀, s, hs⟩ : ∃ s₀ : DifferentialSearch Generator Float,
        DifferentialSearch.start (Landscape.sphere ⟨[-1], [2]⟩) ⟨4, 1, 0.5, 0.9, 7⟩
          (Generator.ofSeed 7) = .ok s₀ ∧
        ∃ s, DifferentialSearch.after [.run] 1 s₀ = .ok s :=
      exists_eq_ok_and_eq_ok (by decide +kernel)
    obtain ⟨hstart, hafter⟩ := hall.1 ⟨4, 1, 0.5, 0.9, 7⟩
    obtain ⟨t₀, ht₀, -⟩ := hstart.exists_eq_ok hs₀
    obtain ⟨t, ht, htwin, -⟩ := (hafter s₀ t₀ hs₀ ht₀).exists_eq_ok hs
    exact ⟨s₀, t₀, s, t, hs₀, ht₀, hs, ht, htwin.population, htwin.source⟩
  · obtain ⟨s₀, hs₀, s, hs⟩ : ∃ s₀ : SwarmSearch Generator Float,
        SwarmSearch.start (Landscape.sphere ⟨[-1], [2]⟩) ⟨3, 1, 2, 2, 0.9, 0.2, 7⟩
          (Generator.ofSeed 7) = .ok s₀ ∧
        ∃ s, SwarmSearch.after [.run] 1 s₀ = .ok s :=
      exists_eq_ok_and_eq_ok (by decide +kernel)
    obtain ⟨hstart, hafter⟩ := hall.2 ⟨3, 1, 2, 2, 0.9, 0.2, 7⟩
    obtain ⟨t₀, ht₀, -⟩ := hstart.exists_eq_ok hs₀
    obtain ⟨t, ht, htwin, -⟩ := (hafter s₀ t₀ hs₀ ht₀).exists_eq_ok hs
    exact ⟨s₀, t₀, s, t, hs₀, ht₀, hs, ht, htwin.progress.solution, htwin.source⟩

end PopulationSearch
