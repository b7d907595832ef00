import PopulationSearch.Proofs.Agreement
import PopulationSearch.Proofs.DifferentialSearch
import PopulationSearch.Proofs.SwarmSearch

/-! Searches whose objectives are alike take the same branches and make the same draws. -/

namespace PopulationSearch

variable {γ α : Type} [Scalar α] [Source γ α] {a b : Objective α}

structure Progress.Twin (a b : Objective α) (p q : Progress (List α) α) : Prop where
  solution : q.best.solution = p.best.solution
  quality : a.Matched b p.best.quality q.best.quality
  generation : q.generation = p.generation

omit [Scalar α] in
theorem Progress.Twin.offer {p q : Progress (List α) α} (h : p.Twin a b q) (halike : a.Alike b)
    (x : List α) {v w : α} (hvalue : a.Matched b v w) :
    (p.offer a.isFitter x v).Twin a b (q.offer b.isFitter x w) := by
  refine ⟨?_, ?_, h.generation⟩ <;>
    simp only [Progress.offer, Best.offer, ← halike.isFitter_eq hvalue h.quality] <;> split
  · rfl
  · exact h.solution
  · exact hvalue
  · exact h.quality

omit [Scalar α] in
theorem Progress.Twin.advance {p q : Progress (List α) α} (h : p.Twin a b q) :
    p.advance.Twin a b q.advance :=
  ⟨h.solution, h.quality, congrArg (· + 1) h.generation⟩

omit [Scalar α] in
theorem Progress.Twin.finish {p q : Progress (List α) α} (h : p.Twin a b q) :
    p.finish.Twin a b q.finish := { h with }

namespace DifferentialSearch

variable {s t : DifferentialSearch γ α}

/-- The searches have the same vectors everywhere and are about to make the same draws. -/
structure Twin (a b : Objective α) (s t : DifferentialSearch γ α) : Prop where
  left : s.objective = a
  right : t.objective = b
  config : t.config = s.config
  population : t.population = s.population
  values : List.Forall₂ (a.Matched b) s.values t.values
  source : t.source = s.source
  progress : s.progress.Twin a b t.progress

theorem Twin.trial_eq (h : Twin a b s t) (halike : a.Alike b) (i : Nat) :
    trial t i = trial s i := by
  have hbounds : t.objective.bounds = s.objective.bounds := by rw [h.left, h.right, halike.bounds]
  simp only [trial, h.population, h.config, hbounds]

omit [Scalar α] [Source γ α] in
theorem Twin.compete (h : Twin a b s t) (halike : a.Alike b) (i : Nat) (x : List α) {v w : α}
    (hvalue : a.Matched b v w) : Agree (Twin a b) (compete i x v s) (compete i x w t) := by
  refine (Agree.demand (rel_getElem?_of_forall₂ h.values i)).bind fun old old' hold => ?_
  rw [h.left, h.right, ← halike.isFitter_eq hvalue hold]
  split
  · refine .ok ⟨rfl, rfl, h.config, ?_, forall₂_set h.values i hvalue, h.source, ?_⟩
    · exact congrArg (·.set i x) h.population
    · exact h.progress.offer halike x hvalue
  · exact .ok h

theorem Twin.visit (h : Twin a b s t) (halike : a.Alike b) (i : Nat) :
    Agree (Twin a b) (visit s i) (visit t i) := by
  obtain rfl := h.left
  obtain rfl := h.right
  unfold DifferentialSearch.visit
  rw [h.trial_eq halike, h.source]
  refine (Agree.refl (R := Eq) _ fun _ => rfl).bind ?_
  rintro ⟨x, g⟩ _ rfl
  have hdrawn : Twin s.objective t.objective { s with source := g } { t with source := g } :=
    { h with source := rfl }
  exact (halike.evaluate x).bind fun v w hvalue => hdrawn.compete halike i x hvalue

theorem Twin.step (h : Twin a b s t) (halike : a.Alike b) :
    Agree (Twin a b) (step s) (step t) := by
  unfold DifferentialSearch.step
  rw [h.population]
  refine (Agree.foldlM _ (fun _ _ i h => h.visit halike i) h).bind fun s' t' h' => ?_
  exact .ok { h' with progress := h'.progress.advance }

theorem Twin.after (h : Twin a b s t) (halike : a.Alike b) (calls : List Call) (k : Nat) :
    Agree (Twin a b) (after calls k s) (after calls k t) :=
  Agree.afterCalls (fun _ => rfl) (fun _ => rfl) (fun _ _ h => congrArg (·.maxGenerations) h.config)
    (fun _ _ h => h.step halike) (fun _ _ h => { h with progress := h.progress.finish }) calls k h

theorem start_twin (halike : a.Alike b) (config : Differential.Config α) (g : γ) :
    Agree (Twin a b) (start a config g) (start b config g) := by
  unfold start
  rw [halike.validate_eq, halike.bounds]
  refine (Agree.refl (R := Eq) _ fun _ => rfl).bind fun _ _ _ => ?_
  refine (Agree.refl (R := Eq) _ fun _ => rfl).bind fun _ _ _ => ?_
  refine (Agree.refl (R := Eq) _ fun _ => rfl).bind ?_
  rintro ⟨population, g'⟩ _ rfl
  refine (Agree.mapM population fun x => (halike.evaluate x).lift).bind ?_
  intro values values' hvalues
  have hleader := rel_leader?_of_forall₂ (R := a.Matched b)
    (fun _ _ _ _ hv hw => halike.isFitter_eq hv hw) hvalues
  refine (Agree.demand hleader).lift.bind ?_
  rintro ⟨slot, v⟩ ⟨_, w⟩ ⟨rfl, hvalue⟩
  refine (Agree.refl (R := Eq) _ fun _ => rfl).bind ?_
  rintro position _ rfl
  exact .ok ⟨rfl, rfl, rfl, rfl, hvalues, rfl, rfl, hvalue, rfl⟩

end DifferentialSearch

namespace Swarm.Particle

structure Twin (a b : Objective α) (p q : Particle α) : Prop where
  position : q.position = p.position
  velocity : q.velocity = p.velocity
  value : a.Matched b p.value q.value
  bestPosition : q.bestPosition = p.bestPosition
  bestValue : a.Matched b p.bestValue q.bestValue

variable {p q : Particle α}

theorem Twin.fly (h : Twin a b p q) (config : Config α) (vmax : List α) (bounds : Bounds α)
    (best : List α) :
    Draw.Agree (Twin a b) (fly config vmax bounds best p : Draw γ (Particle α))
      (fly config vmax bounds best q) := by
  have hmoves : flyDimension config vmax bounds best q (γ := γ) =
      flyDimension config vmax bounds best p := by
    funext d
    simp only [flyDimension, h.position, h.velocity, h.bestPosition]
  unfold Particle.fly
  rw [hmoves, h.position]
  refine (Draw.Agree.refl _).bind ?_
  rintro moves _ rfl
  exact .pure { h with position := rfl, velocity := rfl }

omit [Scalar α] in
theorem Twin.observe (h : Twin a b p q) (halike : a.Alike b) {v w : α}
    (hvalue : a.Matched b v w) : Twin a b (p.observe a.isFitter v) (q.observe b.isFitter w) := by
  unfold Particle.observe
  rw [← halike.isFitter_eq hvalue h.bestValue]
  split
  · exact ⟨h.position, h.velocity, hvalue, h.position, hvalue⟩
  · exact { h with value := hvalue }

end Swarm.Particle

namespace SwarmSearch

open Swarm

variable {s t : SwarmSearch γ α}

structure Twin (a b : Objective α) (s t : SwarmSearch γ α) : Prop where
  left : s.objective = a
  right : t.objective = b
  config : t.config = s.config
  vmax : t.vmax = s.vmax
  particles : List.Forall₂ (Particle.Twin a b) s.particles t.particles
  source : t.source = s.source
  progress : s.progress.Twin a b t.progress

theorem Twin.visit (h : Twin a b s t) (halike : a.Alike b) (i : Nat) :
    Agree (Twin a b) (visit s i) (visit t i) := by
  obtain rfl := h.left
  obtain rfl := h.right
  unfold SwarmSearch.visit
  rw [h.config, h.vmax, halike.bounds, h.progress.solution, h.source]
  refine (Agree.demand (rel_getElem?_of_forall₂ h.particles i)).bind fun p q hparticle => ?_
  have hfly := hparticle.fly s.config s.vmax s.objective.bounds s.progress.best.solution s.source
  refine hfly.bind ?_
  rintro ⟨p', g⟩ ⟨q', g'⟩ ⟨hflown, hsource⟩
  dsimp only at hflown hsource ⊢
  rw [hflown.position, hsource]
  refine (halike.evaluate p'.position).bind fun v w hvalue => ?_
  have hobserved := hflown.observe halike hvalue
  refine .ok ⟨rfl, rfl, rfl, rfl, forall₂_set h.particles i hobserved, rfl, ?_⟩
  dsimp only
  rw [← halike.isFitter_eq hvalue hflown.bestValue, hobserved.bestPosition]
  split
  · exact h.progress.offer halike _ hvalue
  · exact h.progress

theorem Twin.step (h : Twin a b s t) (halike : a.Alike b) :
    Agree (Twin a b) (step s) (step t) := by
  unfold SwarmSearch.step
  rw [h.particles.length_eq]
  refine (Agree.foldlM _ (fun _ _ i h => h.visit halike i) h).bind fun s' t' h' => ?_
  exact .ok { h' with progress := h'.progress.advance }

theorem Twin.after (h : Twin a b s t) (halike : a.Alike b) (calls : List Call) (k : Nat) :
    Agree (Twin a b) (after calls k s) (after calls k t) :=
  Agree.afterCalls (fun _ => rfl) (fun _ => rfl) (fun _ _ h => congrArg (·.maxGenerations) h.config)
    (fun _ _ h => h.step halike) (fun _ _ h => { h with progress := h.progress.finish }) calls k h

theorem scatter_twin (halike : a.Alike b) (vmax : List α) :
    Draw.Agree (Particle.Twin a b) (scatter a vmax : Draw γ (Particle α)) (scatter b vmax) := by
  unfold scatter
  rw [halike.bounds]
  refine (Draw.Agree.refl _).bind ?_
  rintro position _ rfl
  refine (Draw.Agree.refl _).bind ?_
  rintro velocity _ rfl
  refine (Draw.Agree.lift (halike.evaluate position)).bind fun v w hvalue => ?_
  exact .pure ⟨rfl, rfl, hvalue, rfl, hvalue⟩

theorem start_twin (halike : a.Alike b) (config : Config α) (g : γ) :
    Agree (Twin a b) (start a config g) (start b config g) := by
  unfold start
  rw [halike.validate_eq, halike.bounds]
  refine (Agree.refl (R := Eq) _ fun _ => rfl).bind fun _ _ _ => ?_
  refine (Agree.refl (R := Eq) _ fun _ => rfl).bind fun _ _ _ => ?_
  refine (Agree.lift ((scatter_twin halike _).times _ g)).bind ?_
  rintro ⟨particles, g'⟩ ⟨particles', _⟩ ⟨hparticles, rfl⟩
  have hleader := rel_leader?_of_forall₂ (R := Particle.Twin a b)
    (fun _ _ _ _ hp hq => halike.isFitter_eq hp.bestValue hq.bestValue) hparticles
  refine (Agree.demand hleader).lift.bind ?_
  rintro ⟨i, p⟩ ⟨_, q⟩ ⟨-, hp⟩
  exact .ok ⟨rfl, rfl, rfl, rfl, hparticles, rfl, hp.bestPosition, hp.bestValue, rfl⟩

end SwarmSearch
end PopulationSearch
