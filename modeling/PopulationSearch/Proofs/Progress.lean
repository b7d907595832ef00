import Mathlib.Data.List.Chain
import PopulationSearch.Proofs.Outcome

/-! The best of a run, and the history that ends with its quality. -/

namespace PopulationSearch

variable {σ α : Type}

theorem Best.offer_of {P : Best σ α → Prop} {b : Best σ α} (h : P b) (fitter : α → α → Bool)
    {candidate : σ} {quality : α} (hnew : P ⟨candidate, quality⟩) :
    P (b.offer fitter candidate quality) := by
  unfold Best.offer
  split
  · exact hnew
  · exact h

namespace Progress

variable {p : Progress σ α}

structure Recorded (p : Progress σ α) : Prop where
  length_history : p.history.length = p.generation + 1
  last_history : p.history.getLast? = some p.best.quality

theorem recorded_start (best : Best σ α) (event : Event α) : (start best event).Recorded :=
  ⟨rfl, rfl⟩

theorem Recorded.offer_advance (h : p.Recorded) (fitter : α → α → Bool) (candidate : σ)
    (quality : α) : (p.offer fitter candidate quality).advance.Recorded := by
  constructor
  case length_history => simp [advance, offer, h.length_history]
  case last_history => simp [advance]

/-- Each quality is the one before or is reached from it by steps of a relation. -/
structure Improving (r : α → α → Prop) (p : Progress σ α) : Prop extends p.Recorded where
  chain : p.history.IsChain (Relation.ReflTransGen r)

theorem improving_start (r : α → α → Prop) (best : Best σ α) (event : Event α) :
    (start best event).Improving r :=
  ⟨recorded_start best event, .singleton _⟩

theorem Improving.advance {r : α → α → Prop} (h : p.Improving r) {best : Best σ α}
    (hbest : Relation.ReflTransGen r p.best.quality best.quality) :
    ({ p with best := best } : Progress σ α).advance.Improving r where
  length_history := by simp [Progress.advance, h.length_history]
  last_history := by simp [Progress.advance]
  chain := by
    refine List.isChain_append.mpr ⟨h.chain, .singleton _, ?_⟩
    intro last hlast next hnext
    rw [h.last_history] at hlast
    cases hlast
    cases hnext
    exact hbest

end Progress
end PopulationSearch
