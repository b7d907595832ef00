import PopulationSearch.Proofs.Order
import PopulationSearch.Proofs.Standing
import PopulationSearch.Proofs.Wheel

/-! Most candidates never meet the best: they lose against the leader of their generation or the
holder of their slot. Under an order they could not have won against the best either. -/

namespace PopulationSearch

variable {σ α : Type} {fitter : α → α → Bool}

structure Best.Leads (fitter : α → α → Bool) (seen : List (Best σ α)) (b : Best σ α) : Prop where
  mem : b ∈ seen
  unbeaten : ∀ c ∈ seen, fitter c.quality b.quality = false

theorem Best.leads_singleton [Scalar α] (hrank : Ranks fitter) (b : Best σ α) :
    b.Leads fitter [b] where
  mem := List.mem_singleton_self b
  unbeaten := by simpa using hrank.irrefl b.quality

theorem Best.leads_of_leader? [Scalar α] (hrank : Ranks fitter) {β : Type} {f : β → Best σ α}
    {l : List β} {i : Nat} {x : β}
    (h : leader? (fun a b => fitter (f a).quality (f b).quality) l = some (i, x)) :
    (f x).Leads fitter (l.map f) where
  mem := List.mem_map_of_mem (List.mem_of_getElem? (getElem?_of_leader? _ h))
  unbeaten := by
    rw [List.forall_mem_map]
    exact unbeaten_of_leader? (fun a b => fitter (f a).quality (f b).quality)
      (fun y => hrank.irrefl _) (fun x y z => hrank.trans _ _ _) h

section Offer

variable [Scalar α] {b : Best σ α}

theorem Best.not_fitter_offer (hrank : Ranks fitter) {candidate : σ} {quality x : α}
    (h : fitter x b.quality = false) :
    fitter x (b.offer fitter candidate quality).quality = false := by
  unfold Best.offer
  split
  case isFalse => exact h
  case isTrue hnew =>
    -- what beats the new best would have beaten the old one
    by_contra hbeats
    rw [Bool.not_eq_false] at hbeats
    simp [hrank.trans _ _ _ hbeats hnew] at h

theorem Best.offered_not_fitter (hrank : Ranks fitter) {candidate : σ} {quality : α} :
    fitter quality (b.offer fitter candidate quality).quality = false := by
  unfold Best.offer
  split
  case isTrue => exact hrank.irrefl quality
  case isFalse h => simpa using h

theorem Best.Leads.offer (hrank : Ranks fitter) {seen batch : List (Best σ α)} {c : Best σ α}
    (h : b.Leads fitter seen) (hc : c.Leads fitter batch)
    (hnumber : Scalar.isNaN c.quality = false) :
    (b.offer fitter c.solution c.quality).Leads fitter (seen ++ batch) where
  mem := Best.offer_of (P := fun b => b ∈ seen ++ batch) (List.mem_append_left _ h.mem) fitter
    (List.mem_append_right _ hc.mem)
  unbeaten := by
    rw [List.forall_mem_append]
    refine ⟨fun x hx => Best.not_fitter_offer hrank (h.unbeaten x hx), fun x hx => ?_⟩
    by_contra hbeats
    rw [Bool.not_eq_false] at hbeats
    rcases hrank.split _ c.quality _ hnumber hbeats with hleader | hbest
    · simp [hc.unbeaten x hx] at hleader
    · simp [Best.offered_not_fitter hrank] at hbest

end Offer

namespace Standing

variable {s : Standing σ α} {seen : List (Best σ α)} {c : Best σ α} {i : Nat}

structure Leads (fitter : α → α → Bool) (seen : List (Best σ α)) (s : Standing σ α) : Prop where
  slots : ∀ b ∈ s.slots, b ∈ seen
  best : s.best.Leads fitter seen

theorem Leads.contest [Scalar α] (hrank : Ranks fitter) (h : s.Leads fitter seen)
    (hseen : ∀ b ∈ seen, Scalar.isNaN b.quality = false) (hc : Scalar.isNaN c.quality = false)
    (hi : i < s.slots.length) : (s.contest fitter i c).Leads fitter (seen ++ [c]) := by
  have hslot : s.slots[i]? = some s.slots[i] := List.getElem?_eq_getElem hi
  have hholder : s.slots[i] ∈ seen := h.slots _ (List.getElem_mem hi)
  constructor
  · intro b hb
    rcases mem_contest hb with hold | rfl
    · exact List.mem_append_left _ (h.slots b hold)
    · exact List.mem_append_right _ (List.mem_singleton_self _)
  cases hfitter : fitter c.quality s.slots[i].quality with
  | true =>
    rw [contest_of_fitter hslot hfitter]
    exact h.best.offer hrank (c.leads_singleton hrank) hc
  | false =>
    rw [contest_of_not_fitter hslot hfitter]
    refine ⟨List.mem_append_left _ h.best.mem, ?_⟩
    rw [List.forall_mem_append, List.forall_mem_singleton]
    refine ⟨h.best.unbeaten, ?_⟩
    by_contra hbeats
    rw [Bool.not_eq_false] at hbeats
    rcases hrank.split _ _ _ (hseen _ hholder) hbeats with hlost | hbest
    · rw [hfitter] at hlost
      cases hlost
    · rw [h.best.unbeaten _ hholder] at hbest
      cases hbest

end Standing

namespace Progress

variable {p : Progress σ α} {batches : List (List (Best σ α))}

/-- The batches are the first candidates and those of each generation. Every entry of the history is
the quality of one that leads all up to then. -/
structure Optimal (fitter : α → α → Bool) (batches : List (List (Best σ α)))
    (p : Progress σ α) : Prop extends p.Recorded where
  length_batches : batches.length = p.generation + 1
  history : ∀ (k : Nat) (v : α), p.history[k]? = some v →
    ∃ b : Best σ α, b.quality = v ∧ b.Leads fitter (batches.take (k + 1)).flatten
  best : p.best.Leads fitter batches.flatten

theorem optimal_start {best : Best σ α} {batch : List (Best σ α)} (event : Event α)
    (h : best.Leads fitter batch) : (start best event).Optimal fitter [batch] where
  toRecorded := recorded_start best event
  length_batches := rfl
  history := by
    intro k v hv
    have hmem : v ∈ [best.quality] := List.mem_of_getElem? hv
    rw [List.mem_singleton] at hmem
    subst hmem
    exact ⟨best, rfl, by simpa using h⟩
  best := by
    rw [List.flatten_singleton]
    exact h

theorem Optimal.advance (h : p.Optimal fitter batches) {batch : List (Best σ α)} {best : Best σ α}
    (hbest : best.Leads fitter (batches.flatten ++ batch)) :
    ({ p with best := best } : Progress σ α).advance.Optimal fitter (batches ++ [batch]) where
  length_history := by simp [Progress.advance, h.length_history]
  last_history := by simp [Progress.advance]
  length_batches := by simp [Progress.advance, h.length_batches]
  history := by
    intro k v hv
    rcases Nat.lt_or_ge k p.history.length with hlt | hge
    · rw [Progress.advance, List.getElem?_append_left hlt] at hv
      have hk : k + 1 ≤ batches.length := by
        rw [h.length_batches, ← h.length_history]
        exact hlt
      rw [List.take_append_of_le_length hk]
      exact h.history k v hv
    · rw [Progress.advance, List.getElem?_append_right hge] at hv
      have hmem : v ∈ [best.quality] := List.mem_of_getElem? hv
      rw [List.mem_singleton] at hmem
      subst hmem
      have hall : (batches ++ [batch]).length ≤ k + 1 := by
        rw [List.length_append, h.length_batches, ← h.length_history]
        exact Nat.succ_le_succ hge
      refine ⟨best, rfl, ?_⟩
      rw [List.take_of_length_le hall, List.flatten_concat]
      exact hbest
  best := by
    rw [List.flatten_concat]
    exact hbest

theorem Optimal.finish (h : p.Optimal fitter batches) : p.finish.Optimal fitter batches :=
  { h with }

def Nonworsening (fitter : α → α → Bool) (p : Progress σ α) : Prop :=
  p.history.Pairwise fun earlier later => fitter earlier later = false

theorem Optimal.nonworsening (h : p.Optimal fitter batches) : p.Nonworsening fitter := by
  rw [Nonworsening, List.pairwise_iff_getElem]
  intro i j hi hj hij
  obtain ⟨b, hb, hleads⟩ := h.history i _ (List.getElem?_eq_getElem hi)
  obtain ⟨b', hb', hleads'⟩ := h.history j _ (List.getElem?_eq_getElem hj)
  rw [← hb, ← hb']
  have hprefix : batches.take (i + 1) <+: batches.take (j + 1) :=
    List.take_prefix_take_left (by omega)
  obtain ⟨batch, hbatch, hmem⟩ := List.mem_flatten.mp hleads.mem
  exact hleads'.unbeaten b (List.mem_flatten.mpr ⟨batch, hprefix.mem hbatch, hmem⟩)

end Progress
end PopulationSearch
