import PopulationSearch.Proofs.Calls
import PopulationSearch.Vector.Landscape
import PopulationSearch.Wheel

/-! Two computations side by side: they fail alike, or succeed with related outcomes. -/

namespace PopulationSearch

variable {ε β β' δ δ' : Type}

inductive Agree (R : β → β' → Prop) : Except ε β → Except ε β' → Prop
  | ok {y : β} {y' : β'} : R y y' → Agree R (.ok y) (.ok y')
  | error (e : ε) : Agree R (.error e) (.error e)

namespace Agree

variable {R : β → β' → Prop} {S : δ → δ' → Prop} {x : Except ε β} {x' : Except ε β'}

theorem refl {R : β → β → Prop} (x : Except ε β) (h : ∀ y, R y y) : Agree R x x := by
  cases x with
  | error e => exact .error e
  | ok y => exact .ok (h y)

theorem bind {f : β → Except ε δ} {f' : β' → Except ε δ'} (h : Agree R x x')
    (hf : ∀ y y', R y y' → Agree S (f y) (f' y')) : Agree S (x >>= f) (x' >>= f') := by
  cases h with
  | ok h => exact hf _ _ h
  | error e => exact .error e

theorem exists_eq_ok (h : Agree R x x') {y : β} (hx : x = .ok y) : ∃ y', x' = .ok y' ∧ R y y' := by
  cases h with
  | ok h =>
    cases hx
    exact ⟨_, rfl, h⟩
  | error e => cases hx

theorem and_ensures {P : β → Prop} {P' : β' → Prop} (h : Agree R x x') (hx : Ensures x P)
    (hx' : Ensures x' P') : Agree (fun y y' => R y y' ∧ P y ∧ P' y') x x' := by
  cases h with
  | ok h => exact .ok ⟨h, hx _ rfl, hx' _ rfl⟩
  | error e => exact .error e

theorem lift {α : Type} {x : Except Fault β} {x' : Except Fault β'} (h : Agree R x x') :
    Agree R (liftM x : Except (Rejection α) β) (liftM x' : Except (Rejection α) β') := by
  cases h with
  | ok h => exact .ok h
  | error f => exact .error _

theorem demand {o : Option β} {o' : Option β'} (h : Option.Rel R o o') :
    Agree R (PopulationSearch.demand o) (PopulationSearch.demand o') := by
  cases h with
  | some h => exact .ok h
  | none => exact .error _

theorem mapM {f : β → Except ε δ} {f' : β → Except ε δ'} (l : List β)
    (h : ∀ y, Agree S (f y) (f' y)) : Agree (List.Forall₂ S) (l.mapM f) (l.mapM f') := by
  induction l with
  | nil => exact .ok .nil
  | cons y ys ih =>
    rw [List.mapM_cons, List.mapM_cons]
    exact (h y).bind fun z z' hz => ih.bind fun zs zs' hzs => .ok (.cons hz hzs)

theorem foldlM {f : δ → β → Except ε δ} {f' : δ' → β → Except ε δ'} (l : List β)
    (hstep : ∀ z z' y, S z z' → Agree S (f z y) (f' z' y)) {z : δ} {z' : δ'} (h : S z z') :
    Agree S (l.foldlM f z) (l.foldlM f' z') := by
  induction l generalizing z z' with
  | nil => exact .ok h
  | cons y ys ih =>
    rw [List.foldlM_cons, List.foldlM_cons]
    exact (hstep z z' y h).bind fun _ _ => ih

theorem iterate {f : β → Except ε β} {f' : β' → Except ε β'}
    (hstep : ∀ y y', R y y' → Agree R (f y) (f' y')) (n : Nat) {y : β} {y' : β'} (h : R y y') :
    Agree R (PopulationSearch.iterate n f y) (PopulationSearch.iterate n f' y') := by
  induction n generalizing y y' with
  | zero => exact .ok h
  | succ n ih =>
    rw [iterate_succ, iterate_succ]
    exact (hstep y y' h).bind fun _ _ => ih

theorem afterCalls {step run : β → Except ε β} {step' run' : β' → Except ε β'} {turns : β → Nat}
    {turns' : β' → Nat} {finish : β → β} {finish' : β' → β'}
    (hrun : ∀ s, run s = PopulationSearch.iterate (turns s) step s >>= fun s => pure (finish s))
    (hrun' : ∀ t, run' t = PopulationSearch.iterate (turns' t) step' t >>= fun t =>
      pure (finish' t))
    (hturns : ∀ s t, R s t → turns' t = turns s) (hstep : ∀ s t, R s t → Agree R (step s) (step' t))
    (hfinish : ∀ s t, R s t → R (finish s) (finish' t)) (calls : List Call) (k : Nat) {s : β}
    {t : β'} (h : R s t) :
    Agree R (PopulationSearch.afterCalls step run calls s >>= PopulationSearch.iterate k step)
      (PopulationSearch.afterCalls step' run' calls t >>= PopulationSearch.iterate k step') := by
  refine (Agree.foldlM calls (fun s t call h => ?_) h).bind fun s t h => Agree.iterate hstep k h
  cases call with
  | step => exact hstep s t h
  | run =>
    dsimp only
    rw [hrun, hrun', hturns s t h]
    exact (Agree.iterate hstep _ h).bind fun s t h => .ok (hfinish s t h)

end Agree

namespace Draw

variable {γ : Type}

def Agree (R : β → β' → Prop) (m : Draw γ β) (m' : Draw γ β') : Prop :=
  ∀ g, PopulationSearch.Agree (fun r r' => R r.1 r'.1 ∧ r.2 = r'.2) (m.run g) (m'.run g)

namespace Agree

variable {R : β → β' → Prop} {S : δ → δ' → Prop} {m : Draw γ β} {m' : Draw γ β'}

theorem pure {y : β} {y' : β'} (h : R y y') :
    Agree R (Pure.pure y : Draw γ β) (Pure.pure y' : Draw γ β') := fun _ => .ok ⟨h, rfl⟩

theorem refl (m : Draw γ β) : Agree Eq m m := fun _ => .refl _ fun _ => ⟨rfl, rfl⟩

theorem bind {f : β → Draw γ δ} {f' : β' → Draw γ δ'} (h : Agree R m m')
    (hf : ∀ y y', R y y' → Agree S (f y) (f' y')) : Agree S (m >>= f) (m' >>= f') := by
  intro g
  rw [StateT.run_bind, StateT.run_bind]
  refine (h g).bind ?_
  rintro ⟨y, g₁⟩ ⟨y', _⟩ ⟨hy, rfl⟩
  exact hf y y' hy g₁

theorem lift {x : Except Fault β} {x' : Except Fault β'} (h : PopulationSearch.Agree R x x') :
    Agree R (monadLift x : Draw γ β) (monadLift x' : Draw γ β') := by
  intro g
  cases h with
  | ok h => exact .ok ⟨h, rfl⟩
  | error f => exact .error f

theorem times (n : Nat) (h : Agree R m m') :
    Agree (List.Forall₂ R) (Draw.times n m) (Draw.times n m') := by
  induction n with
  | zero => exact pure .nil
  | succ n ih => exact h.bind fun y y' hy => ih.bind fun l l' hl => pure (.cons hy hl)

end Agree
end Draw

section Loops

variable {m : Type → Type} [Monad m] [LawfulMonad m] {h : δ → δ'}

theorem mapM_comm {f : β → m δ} {f' : β → m δ'} (l : List β) (hf : ∀ y ∈ l, f' y = h <$> f y) :
    l.mapM f' = List.map h <$> l.mapM f := by
  induction l with
  | nil => simp
  | cons y ys ih =>
    obtain ⟨hy, hys⟩ := List.forall_mem_cons.mp hf
    simp [List.mapM_cons, hy, ih hys]

theorem foldlM_comm {f : δ → β → m δ} {f' : δ' → β → m δ'}
    (hf : ∀ z y, f' (h z) y = h <$> f z y) (l : List β) (z : δ) :
    l.foldlM f' (h z) = h <$> l.foldlM f z := by
  induction l generalizing z with
  | nil => simp
  | cons y ys ih => simp [List.foldlM_cons, hf, ih]

theorem foldlM_comm_of_keeps {I : δ → Prop} {f : δ → β → Except ε δ} {f' : δ' → β → Except ε δ'}
    (hf : ∀ z y, I z → f' (h z) y = h <$> f z y)
    (hI : ∀ z y, I z → Yields (f z y) I) (l : List β) {z : δ} (hz : I z) :
    l.foldlM f' (h z) = h <$> l.foldlM f z := by
  induction l generalizing z with
  | nil => rfl
  | cons y ys ih =>
    obtain ⟨w, hw, hIw⟩ := hI z y hz
    rw [List.foldlM_cons, List.foldlM_cons, hf z y hz, hw]
    exact ih hIw

theorem iterate_comm {step : δ → Except ε δ} {step' : δ' → Except ε δ'}
    (hstep : ∀ z, step' (h z) = h <$> step z) (n : Nat) (z : δ) :
    iterate n step' (h z) = h <$> iterate n step z := by
  induction n generalizing z with
  | zero => rfl
  | succ n ih => simp [iterate_succ, hstep, ih]

theorem afterCalls_comm {step run : δ → Except ε δ} {step' run' : δ' → Except ε δ'}
    {turns : δ → Nat} {turns' : δ' → Nat} {finish : δ → δ} {finish' : δ' → δ'}
    (hrun : ∀ s, run s = iterate (turns s) step s >>= fun s => pure (finish s))
    (hrun' : ∀ s, run' s = iterate (turns' s) step' s >>= fun s => pure (finish' s))
    (hturns : ∀ s, turns' (h s) = turns s) (hstep : ∀ s, step' (h s) = h <$> step s)
    (hfinish : ∀ s, finish' (h s) = h (finish s)) (calls : List Call) (k : Nat) (s : δ) :
    (afterCalls step' run' calls (h s) >>= iterate k step') =
      h <$> (afterCalls step run calls s >>= iterate k step) := by
  have hcalls : afterCalls step' run' calls (h s) = h <$> afterCalls step run calls s := by
    refine foldlM_comm (fun s call => ?_) calls s
    cases call with
    | step => exact hstep s
    | run => simp [hrun, hrun', hturns, iterate_comm hstep, hfinish]
  simp [hcalls, iterate_comm hstep]

end Loops

section Lists

variable {R : β → β' → Prop} {l : List β} {l' : List β'}

theorem rel_getElem?_of_forall₂ (h : List.Forall₂ R l l') (i : Nat) :
    Option.Rel R l[i]? l'[i]? := by
  induction h generalizing i with
  | nil => exact .none
  | cons hx _ ih =>
    cases i with
    | zero => simpa using Option.Rel.some hx
    | succ i => simpa using ih i

theorem forall₂_set (h : List.Forall₂ R l l') (i : Nat) {y : β} {y' : β'} (hy : R y y') :
    List.Forall₂ R (l.set i y) (l'.set i y') := by
  induction h generalizing i with
  | nil => exact .nil
  | cons hx hxs ih =>
    cases i with
    | zero => exact .cons hy hxs
    | succ i => exact .cons hx (ih i)

theorem rel_leader?_of_forall₂ {beats : β → β → Bool} {beats' : β' → β' → Bool}
    (hbeats : ∀ x x' y y', R x x' → R y y' → beats x y = beats' x' y')
    (h : List.Forall₂ R l l') :
    Option.Rel (fun r r' => r.1 = r'.1 ∧ R r.2 r'.2) (leader? beats l) (leader? beats' l') := by
  have hgo {xs : List β} {xs' : List β'} (hxs : List.Forall₂ R xs xs') (position held : Nat)
      {holder : β} {holder' : β'} (hholder : R holder holder') :
      (leader?.go beats position held holder xs).1 =
          (leader?.go beats' position held holder' xs').1 ∧
        R (leader?.go beats position held holder xs).2
          (leader?.go beats' position held holder' xs').2 := by
    induction hxs generalizing position held holder holder' with
    | nil => exact ⟨rfl, hholder⟩
    | cons hx _ ih =>
      unfold leader?.go
      rw [← hbeats _ _ _ _ hx hholder]
      split
      · exact ih _ _ hx
      · exact ih _ _ hholder
  cases h with
  | nil => exact .none
  | cons hx hxs => exact .some (hgo hxs 1 0 hx)

end Lists

namespace Objective

variable {α : Type}

def judge (o : Objective α) (x y : List α) : Except Fault Bool := do
  let v ← o.evaluate x
  let w ← o.evaluate y
  return o.isFitter v w

/-- The objectives have the same box and judge all vectors alike. -/
structure Alike (a b : Objective α) : Prop where
  bounds : b.bounds = a.bounds
  dimension : b.dimension = a.dimension
  judge : ∀ x y, b.judge x y = a.judge x y

def Matched (a b : Objective α) (v w : α) : Prop := ∃ x, a.evaluate x = .ok v ∧ b.evaluate x = .ok w

variable {a b : Objective α}

theorem Alike.evaluate (h : a.Alike b) (x : List α) :
    Agree (a.Matched b) (a.evaluate x) (b.evaluate x) := by
  have hjudge := h.judge x x
  unfold Objective.judge at hjudge
  cases ha : a.evaluate x with
  | error f =>
    cases hb : b.evaluate x with
    | error f' =>
      rw [ha, hb] at hjudge
      cases hjudge
      exact .error f
    | ok w =>
      rw [ha, hb] at hjudge
      cases hjudge
  | ok v =>
    cases hb : b.evaluate x with
    | error f' =>
      rw [ha, hb] at hjudge
      cases hjudge
    | ok w => exact .ok ⟨x, ha, hb⟩

theorem Alike.isFitter_eq (h : a.Alike b) {v v' w w' : α} (hv : a.Matched b v v')
    (hw : a.Matched b w w') : a.isFitter v w = b.isFitter v' w' := by
  obtain ⟨x, hx, hx'⟩ := hv
  obtain ⟨y, hy, hy'⟩ := hw
  have hjudge := h.judge x y
  unfold Objective.judge at hjudge
  rw [hx, hx', hy, hy'] at hjudge
  exact (Except.ok.inj hjudge).symm

theorem alike_map [Scalar α] (bounds : Bounds α) (f : List α → Except Fault α) {d d' : Direction}
    {g : α → α} (hg : ∀ v w, d'.isFitter (g v) (g w) = d.isFitter v w) :
    (ofFunction bounds d f).Alike (ofFunction bounds d' fun x => g <$> f x) where
  bounds := rfl
  dimension := rfl
  judge := by
    intro x y
    simp only [Objective.judge, ofFunction, bind_map_left, hg]

theorem Alike.validate_eq [Scalar α] (h : a.Alike b) : b.validate = a.validate := by
  rw [Objective.validate, Objective.validate, h.bounds, h.dimension]

end Objective
end PopulationSearch
