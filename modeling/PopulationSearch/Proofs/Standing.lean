import Mathlib.Logic.Relation
import PopulationSearch.Proofs.Progress
import PopulationSearch.Vector.Landscape

/-! Contests for slots, under any comparison. The best is a record of some slot because a candidate
that drives it out is judged against the same value twice. -/

namespace PopulationSearch

variable {σ α : Type}

structure Standing (σ α : Type) where
  slots : List (Best σ α)
  best : Best σ α

namespace Standing

variable {fitter : α → α → Bool} {s s' : Standing σ α} {c : Best σ α} {i : Nat}

def contest (fitter : α → α → Bool) (i : Nat) (c : Best σ α) (s : Standing σ α) : Standing σ α :=
  match s.slots[i]? with
  | none => s
  | some holder =>
    if fitter c.quality holder.quality then
      ⟨s.slots.set i c, s.best.offer fitter c.solution c.quality⟩
    else s

theorem contest_of_fitter {holder : Best σ α} (hslot : s.slots[i]? = some holder)
    (hfitter : fitter c.quality holder.quality = true) :
    s.contest fitter i c = ⟨s.slots.set i c, s.best.offer fitter c.solution c.quality⟩ := by
  rw [contest, hslot]
  exact if_pos hfitter

theorem contest_of_not_fitter {holder : Best σ α} (hslot : s.slots[i]? = some holder)
    (hfitter : fitter c.quality holder.quality = false) : s.contest fitter i c = s := by
  rw [contest, hslot]
  simp only [hfitter, Bool.false_eq_true, if_false]

theorem contest_cases (fitter : α → α → Bool) (i : Nat) (c : Best σ α) (s : Standing σ α) :
    s.contest fitter i c = s ∨ ∃ holder, s.slots[i]? = some holder ∧
      fitter c.quality holder.quality = true ∧
      s.contest fitter i c = ⟨s.slots.set i c, s.best.offer fitter c.solution c.quality⟩ := by
  cases hslot : s.slots[i]? with
  | none =>
    left
    rw [contest, hslot]
  | some holder =>
    cases hfitter : fitter c.quality holder.quality with
    | false => exact .inl (contest_of_not_fitter hslot hfitter)
    | true => exact .inr ⟨holder, rfl, hfitter, contest_of_fitter hslot hfitter⟩

theorem mem_contest {b : Best σ α} (h : b ∈ (s.contest fitter i c).slots) :
    b ∈ s.slots ∨ b = c := by
  rcases contest_cases fitter i c s with heq | ⟨holder, -, -, heq⟩
  · rw [heq] at h
    exact .inl h
  · rw [heq] at h
    exact List.mem_or_eq_of_mem_set h

theorem best_mem_contest (h : s.best ∈ s.slots) :
    (s.contest fitter i c).best ∈ (s.contest fitter i c).slots := by
  rcases contest_cases fitter i c s with heq | ⟨holder, hslot, hfitter, heq⟩
  · rwa [heq]
  rw [heq]
  have hi : i < s.slots.length := (List.getElem?_eq_some_iff.mp hslot).1
  dsimp only [Best.offer]
  split
  case isTrue => exact List.mem_set hi c
  case isFalse hkept =>
    obtain ⟨j, hj⟩ := List.mem_iff_getElem?.mp h
    have hne : i ≠ j := by
      rintro rfl
      cases hslot.symm.trans hj
      exact hkept hfitter
    apply List.mem_of_getElem? (i := j)
    rw [List.getElem?_set_ne hne, hj]

theorem best_contest (fitter : α → α → Bool) (i : Nat) (c : Best σ α) (s : Standing σ α) :
    (s.contest fitter i c).best = s.best ∨
      (s.contest fitter i c).best = c ∧ fitter c.quality s.best.quality = true := by
  rcases contest_cases fitter i c s with heq | ⟨holder, -, -, heq⟩
  · exact .inl (congrArg best heq)
  · rw [heq]
    dsimp only [Best.offer]
    split
    case isTrue hfitter => exact .inr ⟨rfl, hfitter⟩
    case isFalse => exact .inl rfl

end Standing

def Objective.Replaces (o : Objective α) (old new : α) : Prop :=
  o.isFitter new old = true ∧ ∃ x, o.evaluate x = .ok new

namespace Standing

structure Kept (o : Objective α) (s : Standing (List α) α) : Prop where
  evaluated : ∀ b ∈ s.slots, o.evaluate b.solution = .ok b.quality
  best_mem : s.best ∈ s.slots

variable {o : Objective α} {s s' : Standing (List α) α} {c : Best (List α) α} {i : Nat}

theorem Kept.contest (h : s.Kept o) (hc : o.evaluate c.solution = .ok c.quality) :
    (s.contest o.isFitter i c).Kept o where
  evaluated := by
    intro b hb
    rcases mem_contest hb with hold | rfl
    · exact h.evaluated b hold
    · exact hc
  best_mem := best_mem_contest h.best_mem

/-- Every slot holds what it held, or a record with a fitter value in its place. -/
def FollowedBy (o : Objective α) (s s' : Standing (List α) α) : Prop :=
  ∀ (i : Nat) (b : Best (List α) α), s.slots[i]? = some b →
    ∃ b', s'.slots[i]? = some b' ∧ (b' = b ∨ o.isFitter b'.quality b.quality = true)

structure Contested (o : Objective α) (k : Nat) (s s' : Standing (List α) α) : Prop where
  untouched : ∀ j, k ≤ j → s'.slots[j]? = s.slots[j]?
  followed : s.FollowedBy o s'
  best : Relation.ReflTransGen o.Replaces s.best.quality s'.best.quality

theorem contested_refl (o : Objective α) (s : Standing (List α) α) : s.Contested o 0 s where
  untouched := fun _ _ => rfl
  followed := fun _ b hb => ⟨b, hb, .inl rfl⟩
  best := .refl

theorem Contested.contest {k : Nat} (h : s.Contested o k s')
    (hc : o.evaluate c.solution = .ok c.quality) :
    s.Contested o (k + 1) (s'.contest o.isFitter k c) where
  untouched := by
    intro j hj
    rw [← h.untouched j (by omega)]
    rcases contest_cases o.isFitter k c s' with heq | ⟨holder, -, -, heq⟩
    · rw [heq]
    · rw [heq, List.getElem?_set_ne (by omega)]
  followed := by
    intro j b hb
    rcases contest_cases o.isFitter k c s' with heq | ⟨holder, hslot, hfitter, heq⟩
    · rw [heq]
      exact h.followed j b hb
    rw [heq]
    rcases eq_or_ne k j with rfl | hne
    · have hlt : k < s'.slots.length := (List.getElem?_eq_some_iff.mp hslot).1
      rw [h.untouched k le_rfl, hb] at hslot
      cases hslot
      exact ⟨c, List.getElem?_set_self hlt, .inr hfitter⟩
    · rw [List.getElem?_set_ne hne]
      exact h.followed j b hb
  best := by
    rcases best_contest o.isFitter k c s' with heq | ⟨heq, hfitter⟩
    · rw [heq]
      exact h.best
    · rw [heq]
      exact h.best.tail ⟨hfitter, _, hc⟩

end Standing
end PopulationSearch
