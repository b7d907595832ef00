import PopulationSearch.Proofs.DifferentialSearch
import PopulationSearch.Proofs.SwarmSearch
import PopulationSearch.Vector.Landscape

/-! What the vector searches keep is in order, whatever relation decides what is fitter. -/

namespace PopulationSearch

variable {γ α : Type} [Scalar α] [Source γ α]

theorem kept_throughout (objective : Objective α) (g : γ) (calls : List Call) (k : Nat) :
    (∀ config s₀ s, DifferentialSearch.start objective config g = .ok s₀ →
      DifferentialSearch.after calls k s₀ = .ok s →
      s.objective = objective ∧ s.config = config ∧ s.Kept ∧
      s.progress.Improving objective.Replaces ∧
      (∀ j s', (List.range j).foldlM DifferentialSearch.visit s = .ok s' → s'.Kept) ∧
      ∀ s', DifferentialSearch.step s = .ok s' →
        s.standing.FollowedBy objective s'.standing) ∧
    (∀ config s₀ s, SwarmSearch.start objective config g = .ok s₀ →
      SwarmSearch.after calls k s₀ = .ok s →
      s.objective = objective ∧ s.config = config ∧ s.Kept ∧
      s.progress.Improving objective.Replaces ∧
      (∀ j s', (List.range j).foldlM SwarmSearch.visit s = .ok s' → s'.Kept) ∧
      ∀ s', SwarmSearch.step s = .ok s' → s.standing.FollowedBy objective s'.standing) := by
  constructor
  · intro config s₀ s hstart hafter
    have hs₀ := DifferentialSearch.start_ensures g s₀ hstart
    have hs := DifferentialSearch.after_ensures hs₀ calls k s hafter
    refine ⟨hs.objective, hs.config, hs.kept, hs.objective ▸ hs.improving, ?_, ?_⟩
    · exact fun j s' hvisits => (DifferentialSearch.visits_ensures hs.kept j s' hvisits).kept
    · exact fun s' hstep => (DifferentialSearch.step_ensures hs s' hstep).2
  · intro config s₀ s hstart hafter
    have hs₀ := SwarmSearch.start_ensures g s₀ hstart
    have hs := SwarmSearch.after_ensures hs₀ calls k s hafter
    refine ⟨hs.objective, hs.config, hs.kept, hs.objective ▸ hs.improving, ?_, ?_⟩
    · exact fun j s' hvisits => (SwarmSearch.visits_ensures hs.kept j s' hvisits).kept
    · exact fun s' hstep => (SwarmSearch.step_ensures hs s' hstep).2

def restlessSphere : Objective Float :=
  { Landscape.sphere ⟨[-1], [2]⟩ with isFitter := fun _ _ => true }

theorem kept_throughout_restlessSphere :
    (∃ s₀ : DifferentialSearch Generator Float,
      DifferentialSearch.start restlessSphere ⟨4, 1, 0.5, 0.9, 42⟩ (Generator.ofSeed 42) = .ok s₀ ∧
      ∃ s, DifferentialSearch.after [.run, .step] 1 s₀ = .ok s ∧ s.Kept ∧
        s.progress.Improving restlessSphere.Replaces) ∧
    (∃ s₀ : SwarmSearch Generator Float,
      SwarmSearch.start restlessSphere ⟨3, 1, 2, 2, 0.9, 0.2, 42⟩ (Generator.ofSeed 42) = .ok s₀ ∧
      ∃ s, SwarmSearch.after [.run, .step] 1 s₀ = .ok s ∧ s.Kept ∧
        s.progress.Improving restlessSphere.Replaces) := by
  have hall := kept_throughout restlessSphere (Generator.ofSeed 42) [.run, .step] 1
  constructor
  · obtain ⟨s₀, hstart, s, hafter⟩ : ∃ s₀ : DifferentialSearch Generator Float,
        DifferentialSearch.start restlessSphere ⟨4, 1, 0.5, 0.9, 42⟩
          (Generator.ofSeed 42) = .ok s₀ ∧
        ∃ s, DifferentialSearch.after [.run, .step] 1 s₀ = .ok s :=
      exists_eq_ok_and_eq_ok (by decide +kernel)
    obtain ⟨-, -, hkept, himproving, -⟩ := hall.1 _ s₀ s hstart hafter
    exact ⟨s₀, hstart, s, hafter, hkept, himproving⟩
  · obtain ⟨s₀, hstart, s, hafter⟩ : ∃ s₀ : SwarmSearch Generator Float,
        SwarmSearch.start restlessSphere ⟨3, 1, 2, 2, 0.9, 0.2, 42⟩ (Generator.ofSeed 42) = .ok s₀ ∧
        ∃ s, SwarmSearch.after [.run, .step] 1 s₀ = .ok s :=
      exists_eq_ok_and_eq_ok (by decide +kernel)
    obtain ⟨-, -, hkept, himproving, -⟩ := hall.2 _ s₀ s hstart hafter
    exact ⟨s₀, hstart, s, hafter, hkept, himproving⟩

end PopulationSearch
