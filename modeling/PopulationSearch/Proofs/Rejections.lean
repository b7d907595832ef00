import PopulationSearch.Number.Scalar
import PopulationSearch.Progress
import PopulationSearch.Proofs.Outcome

/-! Rejections: a refusal of the input, or a fault of a function that the caller handed over. -/

namespace PopulationSearch

variable {α β : Type} {P : β → Prop} {R : Fault → Prop}

def Failure.Blames (R : Fault → Prop) : Failure α → Prop
  | .invalid _ => True
  | .fault f => R f

def Rejection.Blames (R : Fault → Prop) (r : Rejection α) : Prop := r.failure.Blames R

namespace Meets

theorem of_error {x : Except (Error α) β} :
    Meets (liftM x : Except (Failure α) β) (fun y => x = .ok y) (Failure.Blames R) := by
  cases x with
  | error e => exact trivial
  | ok y => exact rfl

theorem of_fault {x : Except Fault β} (h : Meets x P R) :
    Meets (liftM x : Except (Failure α) β) P (Failure.Blames R) := by
  cases x with
  | error f => exact h
  | ok y => exact h

theorem of_failure {x : Except (Failure α) β} (h : Meets x P (Failure.Blames R)) :
    Meets (liftM x : Except (Rejection α) β) P (Rejection.Blames R) := by
  cases x with
  | error f => exact h
  | ok y => exact h

theorem reject {x : Except Fault β} (h : Meets x P R) :
    Meets (liftM x : Except (Rejection α) β) P (Rejection.Blames R) := by
  cases x with
  | error f => exact h
  | ok y => exact h

theorem demand_bind {δ : Type} {o : Option β} {y : β} {f : β → Except (Rejection α) δ}
    {S : δ → Prop} {R : Rejection α → Prop} (ho : o = some y) (h : Meets (f y) S R) :
    Meets ((liftM (demand o) : Except (Rejection α) β) >>= f) S R := by
  rw [ho]
  exact h

end Meets

namespace Requirement

theorem atLeast_eq_ok {parameter : Parameter} {least given : Nat} :
    (atLeast parameter least given : Except (ConfigError α) Unit) = .ok () ↔ least ≤ given := by
  rw [atLeast]
  split
  case isTrue hlt => exact ⟨nofun, fun hle => absurd hlt (Nat.not_lt.mpr hle)⟩
  case isFalse hnot => exact ⟨fun _ => Nat.le_of_not_lt hnot, fun _ => rfl⟩

theorem rate_eq_ok [Scalar α] {parameter : Parameter} {value : α} :
    rate parameter value = .ok () ↔ 0 ≤ value ∧ value ≤ 1 := by
  rw [rate]
  split
  case isTrue h => exact ⟨fun _ => h, fun _ => rfl⟩
  case isFalse h => exact ⟨nofun, fun h' => absurd h' h⟩

theorem share_eq_ok [Scalar α] {parameter : Parameter} {value : α} :
    share parameter value = .ok () ↔ 0 < value ∧ value ≤ 1 := by
  rw [share]
  split
  case isTrue h => exact ⟨fun _ => h, fun _ => rfl⟩
  case isFalse h => exact ⟨nofun, fun h' => absurd h' h⟩

theorem configured_meets (checked : Except (ConfigError α) Unit) :
    Meets (configured checked) (fun _ => checked = .ok ()) (Failure.Blames R) := by
  cases checked with
  | error e => exact trivial
  | ok y => exact rfl

end Requirement
end PopulationSearch
