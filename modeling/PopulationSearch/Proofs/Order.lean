import PopulationSearch.Vector.Landscape

/-! Laws of order that hold of doubles as well, and rankings by them. -/

namespace PopulationSearch

class OrderedScalar (α : Type) [Scalar α] : Prop where
  lt_irrefl : ∀ a : α, ¬ a < a
  lt_trans : ∀ a b c : α, a < b → b < c → a < c
  lt_or_lt : ∀ a b c : α, Scalar.isNaN b = false → a < c → a < b ∨ b < c

class NonnegativeSums (α : Type) [Scalar α] : Prop where
  zero_le_zero : (0 : α) ≤ 0
  zero_le_neg_zero : (0 : α) ≤ -0
  zero_le_of_lt : ∀ a : α, 0 < a → 0 ≤ a
  zero_le_add : ∀ a b : α, 0 ≤ a → 0 ≤ b → 0 ≤ a + b
  isNaN_of_zero_le : ∀ a : α, 0 ≤ a → Scalar.isNaN a = false

variable {α : Type} [Scalar α]

/-- A comparison that ranks numbers, from the fittest down. -/
structure Ranks (fitter : α → α → Bool) : Prop where
  irrefl : ∀ a, fitter a a = false
  trans : ∀ a b c, fitter a b = true → fitter b c = true → fitter a c = true
  split : ∀ a b c, Scalar.isNaN b = false → fitter a c = true →
    fitter a b = true ∨ fitter b c = true

theorem Direction.ranks [OrderedScalar α] (d : Direction) :
    Ranks (d.isFitter : α → α → Bool) := by
  cases d with
  | minimize =>
    refine ⟨fun a => ?_, fun a b c => ?_, fun a b c hb => ?_⟩
    · simpa [isFitter] using OrderedScalar.lt_irrefl a
    · simpa [isFitter] using OrderedScalar.lt_trans a b c
    · simpa [isFitter] using OrderedScalar.lt_or_lt a b c hb
  | maximize =>
    refine ⟨fun a => ?_, fun a b c => ?_, fun a b c hb => ?_⟩
    · simpa [isFitter] using OrderedScalar.lt_irrefl a
    · simpa [isFitter] using fun hba hcb => OrderedScalar.lt_trans c b a hcb hba
    · simpa [isFitter, or_comm] using OrderedScalar.lt_or_lt c b a hb

theorem ranks_lt [OrderedScalar α] : Ranks (fun a b : α => decide (a < b)) :=
  Direction.ranks .minimize

theorem zero_le_foldl_add [NonnegativeSums α] {l : List α} {first : α} (hfirst : 0 ≤ first)
    (hl : ∀ a ∈ l, 0 ≤ a) : 0 ≤ l.foldl (· + ·) first := by
  induction l generalizing first with
  | nil => exact hfirst
  | cons a l ih =>
    obtain ⟨ha, hl⟩ := List.forall_mem_cons.mp hl
    exact ih (NonnegativeSums.zero_le_add first a hfirst ha) hl

end PopulationSearch
