import Mathlib.Data.List.Forall2
import Mathlib.Data.List.Induction
import Mathlib.Data.Nat.Basic
import Mathlib.Order.Basic
import PopulationSearch.Chance.Source
import PopulationSearch.Error
import PopulationSearch.Progress

/-! What computations that may fail are certain to yield. -/

namespace PopulationSearch

variable {ε β δ : Type}

def Yields (x : Except ε β) (P : β → Prop) : Prop := ∃ y, x = .ok y ∧ P y

instance (x : Except ε β) (P : β → Prop) [DecidablePred P] : Decidable (Yields x P) :=
  match x with
  | .ok y => decidable_of_iff (P y) (by simp [Yields])
  | .error _ => isFalse (by simp [Yields])

theorem bind_eq_ok {x : Except ε β} {f : β → Except ε δ} {z : δ} :
    (x >>= f) = .ok z ↔ ∃ y, x = .ok y ∧ f y = .ok z := by
  cases x <;> simp [bind, Except.bind]

theorem bind_eq_error {x : Except ε β} {f : β → Except ε δ} {e : ε} :
    (x >>= f) = .error e ↔ x = .error e ∨ ∃ y, x = .ok y ∧ f y = .error e := by
  cases x <;> simp [bind, Except.bind]

theorem exists_of_mapM_eq_error {f : β → Except ε δ} {l : List β} {e : ε}
    (h : l.mapM f = .error e) : ∃ y ∈ l, f y = .error e := by
  induction l with
  | nil => cases h
  | cons y ys ih =>
    rw [List.mapM_cons] at h
    rcases bind_eq_error.mp h with hy | ⟨z, -, h⟩
    · exact ⟨y, List.mem_cons_self .., hy⟩
    rcases bind_eq_error.mp h with hys | ⟨zs, -, h⟩
    · obtain ⟨y', hy', hfail⟩ := ih hys
      exact ⟨y', List.mem_cons_of_mem _ hy', hfail⟩
    · cases h

theorem exists_eq_ok {x : Except ε β} (h : x.toBool = true) : ∃ y, x = .ok y := by
  cases x with
  | error e => cases h
  | ok y => exact ⟨y, rfl⟩

theorem exists_eq_ok_and_eq_ok {ε' : Type} {x : Except ε β} {f : β → Except ε' δ}
    (h : x.toOption.any (fun y => (f y).toBool) = true) :
    ∃ y, x = .ok y ∧ ∃ z, f y = .ok z := by
  cases x with
  | error e => cases h
  | ok y => exact ⟨y, rfl, exists_eq_ok h⟩

theorem forall₂_of_mapM_eq_ok {f : β → Except ε δ} {l : List β} {l' : List δ}
    (h : l.mapM f = .ok l') : List.Forall₂ (fun y z => f y = .ok z) l l' := by
  induction l generalizing l' with
  | nil =>
    cases h
    exact .nil
  | cons y ys ih =>
    rw [List.mapM_cons] at h
    obtain ⟨z, hz, h⟩ := bind_eq_ok.mp h
    obtain ⟨zs, hzs, h⟩ := bind_eq_ok.mp h
    cases h
    exact .cons hz (ih hzs)

theorem prefix_append_cases {l l' acts : List β} {y : β} (h : acts ++ [y] <+: l ++ l') :
    acts ++ [y] <+: l ∨ ∃ own, acts = l ++ own ∧ own ++ [y] <+: l' := by
  rcases Nat.lt_or_ge acts.length l.length with hlt | hge
  · left
    refine List.prefix_of_prefix_length_le h (List.prefix_append l l') ?_
    rw [List.length_append]
    exact hlt
  · right
    obtain ⟨own, rfl⟩ := List.prefix_of_prefix_length_le (List.prefix_append l l')
      ((List.prefix_append acts [y]).trans h) hge
    rw [List.append_assoc, List.prefix_append_right_inj] at h
    exact ⟨own, rfl, h⟩

theorem prefix_flatMap_range {body : Nat → List β} {n : Nat} {acts : List β} {y : β}
    (h : acts ++ [y] <+: (List.range n).flatMap body) :
    ∃ k < n, ∃ own, acts = (List.range k).flatMap body ++ own ∧ own ++ [y] <+: body k := by
  induction n with
  | zero =>
    have := h.length_le
    simp at this
  | succ n ih =>
    rw [List.range_succ, List.flatMap_append, List.flatMap_singleton] at h
    rcases prefix_append_cases h with hbefore | ⟨own, hacts, hown⟩
    · obtain ⟨k, hk, own⟩ := ih hbefore
      exact ⟨k, Nat.lt_succ_of_lt hk, own⟩
    · exact ⟨n, Nat.lt_succ_self n, own, hacts, hown⟩

theorem take_succ_set {l : List β} {i : Nat} (hi : i < l.length) (y : β) :
    (l.set i y).take (i + 1) = l.take i ++ [y] := by
  rw [List.take_add_one, List.getElem?_set_self hi, List.take_set_of_le le_rfl]
  rfl

theorem foldlM_eq_ok_of {ε' : Type} {f : δ → β → Except ε δ} {f' : δ → β → Except ε' δ}
    (hstep : ∀ w y v, f w y = .ok v → f' w y = .ok v) {l : List β} {z w : δ}
    (h : l.foldlM f z = .ok w) : l.foldlM f' z = .ok w := by
  induction l generalizing z with
  | nil =>
    cases h
    rfl
  | cons y ys ih =>
    rw [List.foldlM_cons] at h ⊢
    obtain ⟨v, hv, h⟩ := bind_eq_ok.mp h
    rw [hstep z y v hv]
    exact ih h

theorem exists_getElem?_of_forall₂ {R : β → δ → Prop} {l : List β} {l' : List δ}
    (h : List.Forall₂ R l l') {i : Nat} {y : β} (hy : l[i]? = some y) :
    ∃ z, l'[i]? = some z ∧ R y z := by
  induction h generalizing i with
  | nil => simp at hy
  | @cons x x' xs xs' hx _ ih =>
    cases i with
    | zero =>
      rw [List.getElem?_cons_zero] at hy
      cases hy
      exact ⟨x', rfl, hx⟩
    | succ i => simpa using ih (by simpa using hy)

theorem pairwise_zipIdx (l : List β) :
    l.zipIdx.Pairwise fun entry entry' => entry.2 < entry'.2 := by
  rw [← List.pairwise_map, List.zipIdx_map_snd]
  exact List.pairwise_lt_range'

theorem find?_zipIdx_eq_some {l : List β} {p : β × Nat → Bool} {y : β} {k : Nat}
    (h : l.zipIdx.find? p = some (y, k)) :
    l[k]? = some y ∧ p (y, k) = true ∧ ∀ j z, l[j]? = some z → p (z, j) = true → k ≤ j := by
  obtain ⟨hp, i, hi, hentry, hbefore⟩ := List.find?_eq_some_iff_getElem.mp h
  rw [List.getElem_zipIdx, Nat.zero_add, Prod.mk.injEq] at hentry
  obtain ⟨rfl, rfl⟩ := hentry
  rw [List.length_zipIdx] at hi
  refine ⟨List.getElem?_eq_getElem hi, hp, fun j z hz hpz => ?_⟩
  by_contra hlt
  obtain ⟨hj, rfl⟩ := List.getElem?_eq_some_iff.mp hz
  simpa [hpz] using hbefore j (Nat.lt_of_not_le hlt)

theorem find?_zipIdx_eq_none {l : List β} {p : β × Nat → Bool} (h : l.zipIdx.find? p = none)
    {y : β} {k : Nat} (hy : l[k]? = some y) : p (y, k) = false := by
  have hmem := List.mk_mem_zipIdx_iff_getElem?.mpr hy
  simpa using List.find?_eq_none.mp h (y, k) hmem

theorem forall_mem_of_forall₂ {R : β → δ → Prop} {Q : δ → Prop} {l : List β} {l' : List δ}
    (h : List.Forall₂ R l l') (hQ : ∀ y z, R y z → Q z) : ∀ z ∈ l', Q z := by
  induction h with
  | nil => simp
  | cons hx _ ih => exact List.forall_mem_cons.mpr ⟨hQ _ _ hx, ih⟩

theorem liftM_eq_ok {α : Type} {x : Except Fault β} {y : β} :
    (liftM x : Except (Failure α) β) = .ok y ↔ x = .ok y := by
  cases x with
  | ok z => exact ⟨fun h => congrArg _ (Except.ok.inj h), fun h => congrArg _ (Except.ok.inj h)⟩
  | error f => exact ⟨nofun, nofun⟩

theorem liftM_ok {α : Type} (y : β) :
    (liftM (Except.ok y : Except Fault β) : Except (Failure α) β) = .ok y := rfl

theorem liftM_map_eq {α : Type} (h : β → δ) (x : Except Fault β) :
    (liftM (h <$> x) : Except (Failure α) δ) = h <$> liftM x := by
  cases x with
  | error e => rfl
  | ok y => rfl

theorem liftM_ne_invalid {α : Type} (x : Except Fault β) (e : Error α) :
    (liftM x : Except (Failure α) β) ≠ .error (.invalid e) := by
  cases x <;> exact nofun

theorem liftM_fault_eq_ok {α : Type} {x : Except Fault β} {y : β} :
    (liftM x : Except (Rejection α) β) = .ok y ↔ x = .ok y := by
  cases x with
  | ok z => exact ⟨fun h => congrArg _ (Except.ok.inj h), fun h => congrArg _ (Except.ok.inj h)⟩
  | error f => exact ⟨nofun, nofun⟩

theorem demand_eq_ok {o : Option β} {y : β} : demand o = .ok y ↔ o = some y := by
  cases o with
  | none => exact ⟨nofun, nofun⟩
  | some z => exact ⟨fun h => congrArg _ (Except.ok.inj h), fun h => congrArg _ (Option.some.inj h)⟩

theorem demand_map (f : β → δ) (o : Option β) : demand (o.map f) = f <$> demand o := by
  cases o <;> rfl

theorem ok_bind (y : β) (f : β → Except ε δ) : (Except.ok y >>= f) = f y := rfl

theorem mapM_eq_ok_of_forall₂ {f : β → Except ε δ} {l : List β} {l' : List δ}
    (h : List.Forall₂ (fun y z => f y = .ok z) l l') : l.mapM f = .ok l' := by
  induction h with
  | nil => rfl
  | cons hy _ ih =>
    rw [List.mapM_cons, hy, ok_bind, ih]
    rfl

theorem forM_eq_mapM_bind (f : β → Except ε PUnit) (l : List β) :
    l.forM f = l.mapM f >>= fun _ => pure ⟨⟩ := by
  induction l with
  | nil => rfl
  | cons y ys ih =>
    rw [List.forM_eq_forM] at ih ⊢
    rw [List.forM_cons, ih, List.mapM_cons]
    simp

theorem forM_eq_ok {f : β → Except ε PUnit} {l : List β} (h : ∀ y ∈ l, f y = .ok ⟨⟩) :
    l.forM f = .ok ⟨⟩ := by
  induction l with
  | nil => rfl
  | cons y ys ih =>
    obtain ⟨hy, hys⟩ := List.forall_mem_cons.mp h
    rw [List.forM_eq_forM] at ih ⊢
    rw [List.forM_cons, hy]
    exact ih hys

theorem iterate_succ_right (n : Nat) (step : β → Except ε β) (x : β) :
    iterate (n + 1) step x = iterate n step x >>= step := by
  induction n generalizing x with
  | zero =>
    rw [iterate_succ]
    exact bind_pure (step x)
  | succ n ih =>
    calc iterate (n + 1 + 1) step x
        = step x >>= fun y => iterate n step y >>= step := by rw [iterate_succ, funext ih]
      _ = iterate (n + 1) step x >>= step := (bind_assoc ..).symm

namespace Yields

variable {x : Except ε β} {P Q : β → Prop}

theorem ok {y : β} (h : P y) : Yields (.ok y : Except ε β) P := ⟨y, rfl, h⟩

theorem pure {y : β} (h : P y) : Yields (Pure.pure y : Except ε β) P := ⟨y, rfl, h⟩

theorem mono (h : Yields x P) (hPQ : ∀ y, P y → Q y) : Yields x Q := by
  obtain ⟨y, hx, hy⟩ := h
  exact ⟨y, hx, hPQ y hy⟩

theorem bind {f : β → Except ε δ} {R : δ → Prop} (h : Yields x P)
    (hf : ∀ y, P y → Yields (f y) R) : Yields (x >>= f) R := by
  obtain ⟨y, rfl, hy⟩ := h
  exact hf y hy

theorem map {f : β → δ} {R : δ → Prop} (h : Yields x P) (hf : ∀ y, P y → R (f y)) :
    Yields (f <$> x) R := by
  obtain ⟨y, rfl, hy⟩ := h
  exact ⟨f y, rfl, hf y hy⟩

theorem eq_bind {y : β} {f : β → Except ε δ} {R : δ → Prop} (hx : x = .ok y)
    (h : Yields (f y) R) : Yields (x >>= f) R := by
  rw [hx]
  exact h

theorem of_eq (h : Yields x P) {y : β} (hx : x = .ok y) : P y := by
  obtain ⟨z, hz, hP⟩ := h
  rw [hx] at hz
  cases hz
  exact hP

theorem demand {o : Option β} {y : β} {P : β → Prop} (ho : o = some y) (h : P y) :
    Yields (PopulationSearch.demand o) P := by
  rw [ho]
  exact ok h

theorem demand_bind {o : Option β} {y : β} {f : β → Except Fault δ} {R : δ → Prop}
    (ho : o = some y) (h : Yields (f y) R) : Yields (PopulationSearch.demand o >>= f) R := by
  rw [ho]
  exact h

theorem mapM {f : β → Except ε δ} {R : β → δ → Prop} (l : List β)
    (h : ∀ y ∈ l, Yields (f y) (R y)) : Yields (l.mapM f) (List.Forall₂ R l) := by
  induction l with
  | nil => exact pure .nil
  | cons y ys ih =>
    rw [List.mapM_cons]
    refine (h y (List.mem_cons_self ..)).bind fun z hz => ?_
    refine (ih fun w hw => h w (List.mem_cons_of_mem _ hw)).bind fun zs hzs => ?_
    exact pure (.cons hz hzs)

theorem exists_map [Nonempty δ] {f : β → Except ε δ} {R : β → δ → Prop} {l : List β}
    (h : ∀ y ∈ l, Yields (f y) (R y)) :
    ∃ value : β → δ, (∀ y ∈ l, f y = .ok (value y) ∧ R y (value y)) ∧
      l.mapM f = .ok (l.map value) := by
  choose! value hvalue using h
  refine ⟨value, hvalue, mapM_eq_ok_of_forall₂ ?_⟩
  rw [List.forall₂_map_right_iff, List.forall₂_same]
  exact fun y hy => (hvalue y hy).1

theorem foldlM {f : δ → β → Except ε δ} (I : List β → δ → Prop) (l : List β) {z : δ}
    (h₀ : I [] z)
    (hstep : ∀ done y, done ++ [y] <+: l → ∀ w, I done w → Yields (f w y) (I (done ++ [y]))) :
    Yields (l.foldlM f z) (I l) := by
  induction l using List.reverseRecOn with
  | nil => exact pure h₀
  | append_singleton ys y ih =>
    rw [List.foldlM_append]
    refine (ih fun done w hw => hstep done w (hw.trans (List.prefix_append ys [y]))).bind ?_
    intro w hw
    rw [List.foldlM_cons]
    exact (hstep ys y List.prefix_rfl w hw).bind fun v hv => pure hv

theorem iterate {step : β → Except ε β} (I : Nat → β → Prop) {y : β} (n : Nat) (h₀ : I 0 y)
    (hstep : ∀ k < n, ∀ z, I k z → Yields (step z) (I (k + 1))) :
    Yields (PopulationSearch.iterate n step y) (I n) := by
  induction n generalizing y I with
  | zero => exact ok h₀
  | succ n ih =>
    rw [iterate_succ]
    refine (hstep 0 n.succ_pos y h₀).bind fun z hz => ?_
    exact ih (fun k => I (k + 1)) hz fun k hk w => hstep (k + 1) (Nat.succ_lt_succ hk) w

end Yields

def Ensures (x : Except ε β) (P : β → Prop) : Prop := ∀ y, x = .ok y → P y

namespace Ensures

variable {x : Except ε β} {P Q : β → Prop}

theorem pure {y : β} (h : P y) : Ensures (Pure.pure y : Except ε β) P := by
  rintro _ ⟨rfl⟩
  exact h

theorem trivial (x : Except ε β) : Ensures x fun _ => True := fun _ _ => True.intro

theorem mono (h : Ensures x P) (hPQ : ∀ y, P y → Q y) : Ensures x Q :=
  fun y hy => hPQ y (h y hy)

theorem bind {f : β → Except ε δ} {R : δ → Prop} (h : Ensures x P)
    (hf : ∀ y, P y → Ensures (f y) R) : Ensures (x >>= f) R := by
  intro z hz
  obtain ⟨y, hy, hz⟩ := bind_eq_ok.mp hz
  exact hf y (h y hy) z hz

theorem foldlM {f : δ → β → Except ε δ} (I : δ → Prop) (hstep : ∀ y w, I w → Ensures (f w y) I)
    (l : List β) {z : δ} (h₀ : I z) : Ensures (l.foldlM f z) I := by
  induction l generalizing z with
  | nil => exact pure h₀
  | cons y ys ih =>
    rw [List.foldlM_cons]
    exact (hstep y z h₀).bind fun w hw => ih hw

theorem foldlM_range {f : δ → Nat → Except ε δ} (I : Nat → δ → Prop) {z : δ} (h₀ : I 0 z) (n : Nat)
    (hstep : ∀ i < n, ∀ w, I i w → Ensures (f w i) (I (i + 1))) :
    Ensures ((List.range n).foldlM f z) (I n) := by
  induction n with
  | zero => exact pure h₀
  | succ n ih =>
    rw [List.range_succ, List.foldlM_append]
    refine (ih fun i hi => hstep i (Nat.lt_succ_of_lt hi)).bind fun w hw => ?_
    rw [List.foldlM_cons]
    exact (hstep n (Nat.lt_succ_self n) w hw).bind fun v hv => pure hv

theorem iterate {step : β → Except ε β} (I : β → Prop) (hstep : ∀ y, I y → Ensures (step y) I)
    (n : Nat) {y : β} (h₀ : I y) : Ensures (PopulationSearch.iterate n step y) I := by
  induction n generalizing y with
  | zero => exact pure h₀
  | succ n ih =>
    rw [iterate_succ]
    exact (hstep y h₀).bind fun z hz => ih hz

end Ensures

/-- The computation succeeds with such an outcome or fails for such a reason. -/
def Meets (x : Except ε β) (P : β → Prop) (R : ε → Prop) : Prop :=
  match x with
  | .ok y => P y
  | .error e => R e

namespace Meets

variable {x : Except ε β} {P Q : β → Prop} {R R' : ε → Prop}

theorem pure {y : β} (h : P y) : Meets (Pure.pure y : Except ε β) P R := h

theorem result (x : Except ε β) : Meets x (fun y => x = .ok y) fun e => x = .error e := by
  cases x with
  | error e => exact rfl
  | ok y => exact rfl

theorem of_yields (h : Yields x P) : Meets x P R := by
  obtain ⟨y, rfl, hy⟩ := h
  exact hy

theorem mono (h : Meets x P R) (hPQ : ∀ y, P y → Q y) (hR : ∀ e, R e → R' e) : Meets x Q R' := by
  cases x with
  | error e => exact hR e h
  | ok y => exact hPQ y h

theorem imp (h : Meets x P R) (hPQ : ∀ y, P y → Q y) : Meets x Q R := h.mono hPQ fun _ => id

theorem bind {f : β → Except ε δ} {S : δ → Prop} (h : Meets x P R)
    (hf : ∀ y, P y → Meets (f y) S R) : Meets (x >>= f) S R := by
  cases x with
  | error e => exact h
  | ok y => exact hf y h

theorem of_eq (h : Meets x P R) {y : β} (hx : x = .ok y) : P y := by
  rw [hx] at h
  exact h

theorem and (h : Meets x P R) (h' : Meets x Q R') :
    Meets x (fun y => P y ∧ Q y) fun e => R e ∧ R' e := by
  cases x with
  | error e => exact ⟨h, h'⟩
  | ok y => exact ⟨h, h'⟩

theorem and_ensures (h : Meets x P R) (h' : Ensures x Q) : Meets x (fun y => P y ∧ Q y) R := by
  cases x with
  | error e => exact h
  | ok y => exact ⟨h, h' y rfl⟩

theorem yields (h : Meets x P R) (hR : ∀ e, ¬ R e) : Yields x P := by
  cases x with
  | error e => exact absurd h (hR e)
  | ok y => exact ⟨y, rfl, h⟩

theorem mapM {f : β → Except ε δ} {S : β → δ → Prop} (l : List β)
    (h : ∀ y ∈ l, Meets (f y) (S y) R) : Meets (l.mapM f) (List.Forall₂ S l) R := by
  induction l with
  | nil => exact pure .nil
  | cons y ys ih =>
    rw [List.mapM_cons]
    refine (h y (List.mem_cons_self ..)).bind fun z hz => ?_
    refine (ih fun w hw => h w (List.mem_cons_of_mem _ hw)).bind fun zs hzs => ?_
    exact pure (.cons hz hzs)

theorem mapM_least {ι : Type} [PartialOrder ι] {key : β → ι} {A : β → Prop} {S : β → ε → Prop}
    {l : List β} {f : β → Except ε δ} (hl : l.Pairwise fun y z => key y < key z)
    (h : ∀ y ∈ l, Meets (f y) (fun _ => A y) fun e => ¬ A y ∧ S y e) :
    Meets (l.mapM f) (fun _ => ∀ y ∈ l, A y)
      fun e => ∃ y ∈ l, ¬ A y ∧ (∀ z ∈ l, ¬ A z → key y ≤ key z) ∧ S y e := by
  induction l with
  | nil => exact .pure nofun
  | cons y ys ih =>
    obtain ⟨hlt, hl⟩ := List.pairwise_cons.mp hl
    obtain ⟨hy, hys⟩ := List.forall_mem_cons.mp h
    rw [List.mapM_cons]
    cases hfy : f y with
    | error e =>
      rw [hfy] at hy
      refine ⟨y, List.mem_cons_self, hy.1, ?_, hy.2⟩
      exact List.forall_mem_cons.mpr ⟨fun _ => le_rfl, fun z hz _ => (hlt z hz).le⟩
    | ok z =>
      rw [hfy] at hy
      have hrest := ih hl hys
      rw [ok_bind]
      cases hfys : ys.mapM f with
      | error e =>
        rw [hfys] at hrest
        obtain ⟨y', hy', hfails, hleast, he⟩ := hrest
        refine ⟨y', List.mem_cons_of_mem _ hy', hfails, ?_, he⟩
        exact List.forall_mem_cons.mpr ⟨fun hnot => absurd hy hnot, hleast⟩
      | ok zs =>
        rw [hfys] at hrest
        exact List.forall_mem_cons.mpr ⟨hy, hrest⟩

theorem forM {f : β → Except ε PUnit} {S : β → Prop} (l : List β)
    (h : ∀ y ∈ l, Meets (f y) (fun _ => S y) R) : Meets (l.forM f) (fun _ => ∀ y ∈ l, S y) R := by
  induction l with
  | nil => exact pure nofun
  | cons y ys ih =>
    rw [List.forM_eq_forM] at ih ⊢
    rw [List.forM_cons]
    refine (h y (List.mem_cons_self ..)).bind fun _ hy => ?_
    refine (ih fun z hz => h z (List.mem_cons_of_mem _ hz)).imp fun _ hys => ?_
    exact List.forall_mem_cons.mpr ⟨hy, hys⟩

theorem foldlM {f : δ → β → Except ε δ} (I : δ → Prop) (l : List β) {z : δ} (h₀ : I z)
    (hstep : ∀ y ∈ l, ∀ w, I w → Meets (f w y) I R) : Meets (l.foldlM f z) I R := by
  induction l generalizing z with
  | nil => exact pure h₀
  | cons y ys ih =>
    rw [List.foldlM_cons]
    refine (hstep y (List.mem_cons_self ..) z h₀).bind fun w hw => ?_
    exact ih hw fun u hu => hstep u (List.mem_cons_of_mem _ hu)

theorem iterate {step : β → Except ε β} (I : β → Prop) (hstep : ∀ y, I y → Meets (step y) I R)
    (n : Nat) {y : β} (h₀ : I y) : Meets (PopulationSearch.iterate n step y) I R := by
  induction n generalizing y with
  | zero => exact pure h₀
  | succ n ih =>
    rw [iterate_succ]
    exact (hstep y h₀).bind fun z hz => ih hz

end Meets

/-- The computation succeeds with such an outcome or is refused for such a reason. -/
def Admits {α : Type} (x : Except (Failure α) β) (P : β → Prop) (R : Error α → Prop) : Prop :=
  match x with
  | .ok y => P y
  | .error (.invalid e) => R e
  | .error (.fault _) => False

namespace Admits

variable {α : Type} {x : Except (Failure α) β} {P Q : β → Prop} {R R' : Error α → Prop}

theorem pure {y : β} (h : P y) : Admits (Pure.pure y : Except (Failure α) β) P R := h

theorem mono (h : Admits x P R) (hPQ : ∀ y, P y → Q y) (hR : ∀ e, R e → R' e) :
    Admits x Q R' := by
  rcases x with (e | f) | y
  · exact hR e h
  · exact h.elim
  · exact hPQ y h

theorem bind {f : β → Except (Failure α) δ} {S : δ → Prop} (h : Admits x P R)
    (hf : ∀ y, P y → Admits (f y) S R) : Admits (x >>= f) S R := by
  rcases x with (e | f) | y
  · exact h
  · exact h.elim
  · exact hf y h

theorem lift {x : Except Fault β} (h : Yields x P) :
    Admits (liftM x : Except (Failure α) β) P R := by
  obtain ⟨y, rfl, hy⟩ := h
  exact hy

theorem demand_bind {o : Option β} {y : β} {f : β → Except (Failure α) δ} {S : δ → Prop}
    (ho : o = some y) (h : Admits (f y) S R) :
    Admits ((liftM (demand o) : Except (Failure α) β) >>= f) S R := by
  rw [ho]
  exact h

theorem mapM {f : β → Except (Failure α) δ} {S : β → δ → Prop} (l : List β)
    (h : ∀ y ∈ l, Admits (f y) (S y) R) : Admits (l.mapM f) (List.Forall₂ S l) R := by
  induction l with
  | nil => exact pure .nil
  | cons y ys ih =>
    rw [List.mapM_cons]
    refine (h y (List.mem_cons_self ..)).bind fun z hz => ?_
    refine (ih fun w hw => h w (List.mem_cons_of_mem _ hw)).bind fun zs hzs => ?_
    exact pure (.cons hz hzs)

end Admits

namespace Draw

variable {γ : Type}

theorem run_lift_ok (y : β) (g : γ) :
    (liftM (Except.ok y : Except Fault β) : Draw γ β).run g = .ok (y, g) := rfl

def Yields (m : Draw γ β) (P : β → Prop) : Prop :=
  ∀ g, PopulationSearch.Yields (m.run g) fun r => P r.1

namespace Yields

variable {m : Draw γ β} {P Q : β → Prop}

theorem pure {y : β} (h : P y) : Yields (Pure.pure y : Draw γ β) P := fun _ => .pure h

theorem mono (h : Yields m P) (hPQ : ∀ y, P y → Q y) : Yields m Q :=
  fun g => (h g).mono fun r => hPQ r.1

theorem bind {f : β → Draw γ δ} {R : δ → Prop} (h : Yields m P)
    (hf : ∀ y, P y → Yields (f y) R) : Yields (m >>= f) R := by
  intro g
  rw [StateT.run_bind]
  exact (h g).bind fun r hr => hf r.1 hr r.2

theorem lift {x : Except Fault β} (h : PopulationSearch.Yields x P) :
    Yields (monadLift x : Draw γ β) P := by
  intro g
  obtain ⟨y, rfl, hy⟩ := h
  exact ⟨(y, g), rfl, hy⟩

theorem demand_bind {o : Option β} {y : β} {f : β → Draw γ δ} {R : δ → Prop}
    (ho : o = some y) (h : Yields (f y) R) :
    Yields ((monadLift (demand o) : Draw γ β) >>= f) R := by
  rw [ho]
  exact h

theorem times {P : β → Prop} (n : Nat) (h : Yields m P) :
    Yields (Draw.times n m) fun l => l.length = n ∧ ∀ y ∈ l, P y := by
  induction n with
  | zero => exact pure ⟨rfl, by simp⟩
  | succ n ih =>
    refine h.bind fun y hy => ih.bind fun l hl => pure ⟨?_, ?_⟩
    · rw [List.length_cons, hl.1]
    · exact List.forall_mem_cons.mpr ⟨hy, hl.2⟩

theorem mapM {f : β → Draw γ δ} {R : β → δ → Prop} (l : List β)
    (h : ∀ y ∈ l, Yields (f y) (R y)) : Yields (l.mapM f) (List.Forall₂ R l) := by
  induction l with
  | nil => exact pure .nil
  | cons y ys ih =>
    rw [List.mapM_cons]
    refine (h y (List.mem_cons_self ..)).bind fun z hz => ?_
    refine (ih fun w hw => h w (List.mem_cons_of_mem _ hw)).bind fun zs hzs => ?_
    exact pure (.cons hz hzs)

theorem foldlM {f : δ → β → Draw γ δ} (I : δ → Prop) (l : List β) {z : δ} (h₀ : I z)
    (hstep : ∀ y ∈ l, ∀ w, I w → Yields (f w y) I) : Yields (l.foldlM f z) I := by
  induction l generalizing z with
  | nil => exact pure h₀
  | cons y ys ih =>
    rw [List.foldlM_cons]
    refine (hstep y (List.mem_cons_self ..) z h₀).bind fun w hw => ?_
    exact ih hw fun u hu => hstep u (List.mem_cons_of_mem _ hu)

end Yields

/-- The outcomes of a traversal that passes the source on from one element to the next. -/
inductive Thread (R : β → γ → δ → γ → Prop) : List β → γ → List δ → γ → Prop
  | nil {g : γ} : Thread R [] g [] g
  | cons {y : β} {ys : List β} {z : δ} {zs : List δ} {g g' g'' : γ} :
    R y g z g' → Thread R ys g' zs g'' → Thread R (y :: ys) g (z :: zs) g''

theorem Thread.forall₂ {R : β → γ → δ → γ → Prop} {P : β → δ → Prop} {l : List β} {zs : List δ}
    {g g' : γ} (h : Thread R l g zs g') (hP : ∀ y g z g', R y g z g' → P y z) :
    List.Forall₂ P l zs := by
  induction h with
  | nil => exact .nil
  | cons hy _ ih => exact .cons (hP _ _ _ _ hy) ih

theorem mapM_thread {f : β → Draw γ δ} {R : β → γ → δ → γ → Prop} (l : List β)
    (h : ∀ y ∈ l, ∀ g, PopulationSearch.Yields ((f y).run g) fun r => R y g r.1 r.2) (g : γ) :
    PopulationSearch.Yields ((l.mapM f).run g) fun r => Thread R l g r.1 r.2 := by
  induction l generalizing g with
  | nil => exact .pure .nil
  | cons y ys ih =>
    rw [List.mapM_cons, StateT.run_bind]
    refine (h y List.mem_cons_self g).bind fun r hr => ?_
    rw [StateT.run_bind]
    refine (ih (fun z hz => h z (List.mem_cons_of_mem _ hz)) r.2).bind fun rest hrest => ?_
    exact .pure (.cons hr hrest)

def Ensures (m : Draw γ β) (P : β → Prop) : Prop :=
  ∀ g, PopulationSearch.Ensures (m.run g) fun r => P r.1

namespace Ensures

variable {m : Draw γ β} {P : β → Prop}

theorem trivial (m : Draw γ β) : Ensures m fun _ => True := fun _ => .trivial _

theorem pure {y : β} (h : P y) : Ensures (Pure.pure y : Draw γ β) P := fun _ => .pure h

theorem bind {f : β → Draw γ δ} {R : δ → Prop} (h : Ensures m P)
    (hf : ∀ y, P y → Ensures (f y) R) : Ensures (m >>= f) R := by
  intro g
  rw [StateT.run_bind]
  exact (h g).bind fun r hr => hf r.1 hr r.2

theorem lift {x : Except Fault β} (h : PopulationSearch.Ensures x P) :
    Ensures (monadLift x : Draw γ β) P := by
  rintro g ⟨y, g'⟩ hy
  cases x with
  | error f => cases hy
  | ok z =>
    cases hy
    exact h y rfl

theorem times (n : Nat) (h : Ensures m P) :
    Ensures (Draw.times n m) fun l => l.length = n ∧ ∀ y ∈ l, P y := by
  induction n with
  | zero => exact pure ⟨rfl, by simp⟩
  | succ n ih =>
    refine h.bind fun y hy => ih.bind fun l hl => pure ⟨?_, ?_⟩
    · rw [List.length_cons, hl.1]
    · exact List.forall_mem_cons.mpr ⟨hy, hl.2⟩

end Ensures

def Meets (m : Draw γ β) (P : β → Prop) (R : Fault → Prop) : Prop :=
  ∀ g, PopulationSearch.Meets (m.run g) (fun r => P r.1) R

namespace Meets

variable {m : Draw γ β} {P : β → Prop} {R : Fault → Prop}

theorem pure {y : β} (h : P y) : Meets (Pure.pure y : Draw γ β) P R := fun _ => .pure h

theorem of_yields (h : Yields m P) : Meets m P R := fun g => .of_yields (h g)

theorem lift {x : Except Fault β} (h : PopulationSearch.Meets x P R) :
    Meets (monadLift x : Draw γ β) P R := by
  intro g
  cases x with
  | error f => exact h
  | ok y => exact h

theorem bind {f : β → Draw γ δ} {S : δ → Prop} (h : Meets m P R)
    (hf : ∀ y, P y → Meets (f y) S R) : Meets (m >>= f) S R := by
  intro g
  rw [StateT.run_bind]
  exact (h g).bind fun r hr => hf r.1 hr r.2

theorem times (n : Nat) (h : Meets m P R) :
    Meets (Draw.times n m) (fun l => l.length = n ∧ ∀ y ∈ l, P y) R := by
  induction n with
  | zero => exact pure ⟨rfl, by simp⟩
  | succ n ih =>
    refine h.bind fun y hy => ih.bind fun l hl => pure ⟨?_, ?_⟩
    · rw [List.length_cons, hl.1]
    · exact List.forall_mem_cons.mpr ⟨hy, hl.2⟩

end Meets
end Draw
end PopulationSearch
