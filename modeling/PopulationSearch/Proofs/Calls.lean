import PopulationSearch.Proofs.Outcome

/-! Callers ask for single generations and for whole runs, in any order and number. -/

namespace PopulationSearch

inductive Call where
  | step
  | run
  deriving DecidableEq, Repr

def afterCalls {ε β : Type} (step run : β → Except ε β) (calls : List Call) (s : β) :
    Except ε β :=
  calls.foldlM (fun s call => match call with
    | .step => step s
    | .run => run s) s

theorem afterCalls_yields {ε β : Type} {step run : β → Except ε β} (I : β → Prop)
    (hstep : ∀ s, I s → Yields (step s) I) (hrun : ∀ s, I s → Yields (run s) I)
    (calls : List Call) {s : β} (h₀ : I s) : Yields (afterCalls step run calls s) I := by
  refine Yields.foldlM (fun _ => I) calls h₀ fun done call _ s hs => ?_
  cases call with
  | step => exact hstep s hs
  | run => exact hrun s hs

theorem afterCalls_ensures {ε β : Type} {step run : β → Except ε β} {turns : β → Nat}
    {finish : β → β} (hrun : ∀ s, run s = iterate (turns s) step s >>= fun s => pure (finish s))
    (I : β → Prop) (hstep : ∀ s, I s → Ensures (step s) I) (hfinish : ∀ s, I s → I (finish s))
    (calls : List Call) (k : Nat) {s : β} (h₀ : I s) :
    Ensures (afterCalls step run calls s >>= iterate k step) I := by
  refine (Ensures.foldlM I (fun call s hs => ?_) calls h₀).bind fun s hs =>
    Ensures.iterate I hstep k hs
  cases call with
  | step => exact hstep s hs
  | run =>
    dsimp only
    rw [hrun]
    exact (Ensures.iterate I hstep _ hs).bind fun s hs => .pure (hfinish s hs)

theorem afterCalls_meets {ε β : Type} {step run : β → Except ε β} {turns : β → Nat}
    {finish : β → β} (hrun : ∀ s, run s = iterate (turns s) step s >>= fun s => pure (finish s))
    (I : β → Prop) {R : ε → Prop} (hstep : ∀ s, I s → Meets (step s) I R)
    (hfinish : ∀ s, I s → I (finish s)) (calls : List Call) (k : Nat) {s : β} (h₀ : I s) :
    Meets (afterCalls step run calls s >>= iterate k step) I R := by
  refine (Meets.foldlM I calls h₀ fun call _ s hs => ?_).bind fun s hs =>
    Meets.iterate I hstep k hs
  cases call with
  | step => exact hstep s hs
  | run =>
    dsimp only
    rw [hrun]
    exact (Meets.iterate I hstep _ hs).bind fun s hs => .pure (hfinish s hs)

theorem afterCalls_keeps {ε β : Type} {step run : β → Except ε β} {turns : β → Nat}
    {finish : β → β} (hrun : ∀ s, run s = iterate (turns s) step s >>= fun s => pure (finish s))
    (I : β → Prop) (hstep : ∀ s, I s → Yields (step s) I) (hfinish : ∀ s, I s → I (finish s))
    (calls : List Call) (k : Nat) {s : β} (h₀ : I s) :
    Yields (afterCalls step run calls s >>= iterate k step) I := by
  have hmeets : Meets (afterCalls step run calls s >>= iterate k step) I fun _ => False :=
    afterCalls_meets hrun I (fun s hs => .of_yields (hstep s hs)) hfinish calls k h₀
  exact hmeets.yields fun _ => id

/-- From a first state to a later one, with the candidates of each generation in between. -/
inductive Course {β κ : Type} (generation : β → List κ → β → Prop) (finish : β → β) (s₀ : β) :
    List (List κ) → β → Prop
  | start : Course generation finish s₀ [] s₀
  | generation {batches : List (List κ)} {s s' : β} {batch : List κ} :
      Course generation finish s₀ batches s → generation s batch s' →
      Course generation finish s₀ (batches ++ [batch]) s'
  | finish {batches : List (List κ)} {s : β} :
      Course generation finish s₀ batches s → Course generation finish s₀ batches (finish s)

theorem Course.keeps {β κ : Type} {generation : β → List κ → β → Prop} {finish : β → β} {s₀ s : β}
    {batches : List (List κ)} (I : List (List κ) → β → Prop) {first : List κ} (h₀ : I [first] s₀)
    (hgeneration : ∀ batches s batch s', I batches s → generation s batch s' →
      I (batches ++ [batch]) s')
    (hfinish : ∀ batches s, I batches s → I batches (finish s))
    (h : Course generation finish s₀ batches s) : I (first :: batches) s := by
  induction h with
  | start => exact h₀
  | generation _ hs' ih => exact hgeneration _ _ _ _ ih hs'
  | finish _ ih => exact hfinish _ _ ih

theorem exists_course {ε β κ : Type} (generation : β → List κ → β → Prop) {finish : β → β}
    {step run : β → Except ε β} {turns : β → Nat}
    (hrun : ∀ s, run s = iterate (turns s) step s >>= fun s => pure (finish s))
    (hstep : ∀ s, Ensures (step s) fun s' => ∃ batch, generation s batch s')
    (calls : List Call) (k : Nat) (s₀ : β) :
    Ensures (afterCalls step run calls s₀ >>= iterate k step) fun s =>
      ∃ batches, Course generation finish s₀ batches s := by
  refine afterCalls_ensures hrun _ ?_ ?_ calls k ⟨[], .start⟩
  · rintro s ⟨batches, hs⟩
    exact (hstep s).mono fun s' ⟨batch, hs'⟩ => ⟨_, hs.generation hs'⟩
  · rintro s ⟨batches, hs⟩
    exact ⟨batches, hs.finish⟩

end PopulationSearch
