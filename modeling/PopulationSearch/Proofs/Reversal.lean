import PopulationSearch.Proofs.Crossover

/-! Crossing the children back. Their mappings are those of the parents with every pair turned
around, so chains are walked backwards. -/

namespace PopulationSearch.Genetic

open Relation

namespace Mapping

variable {m m' : Mapping} {n : Nat} {incoming displaced : List Nat} {v w w' : Nat}

theorem rightUnique_hop (m : Mapping) : Relator.RightUnique m.Hop :=
  fun _ _ _ hb hc => Option.some.inj (hb.symm.trans hc)

theorem EndsIn.unique (h : m.EndsIn v w) (h' : m.EndsIn v w') : w = w' := by
  rcases ReflTransGen.total_of_right_unique m.rightUnique_hop h.chain h'.chain with hww | hww
  · rcases hww.cases_head with heq | ⟨u, hu, -⟩
    · exact heq
    · exact absurd hu (h.last u)
  · rcases hww.cases_head with heq | ⟨u, hu, -⟩
    · exact heq.symm
    · exact absurd hu (h'.last u)

theorem Renames.hop_swap (hm : m.Renames n incoming displaced)
    (hm' : m'.Renames n displaced incoming) (v w : Nat) : m'.Hop w v ↔ m.Hop v w := by
  rw [hm.hop_iff, hm'.hop_iff, ne_comm]
  simp only [and_comm]

theorem EndsIn.swap (h : m.EndsIn v w) (hm : m.Renames n incoming displaced)
    (hm' : m'.Renames n displaced incoming) (hv : v ∉ displaced) : m'.EndsIn w v where
  chain := ReflTransGen.mono (fun a b hab => (hm.hop_swap hm' b a).mpr hab) w v h.chain.swap
  last := fun u hu => hv (hm.mem_of_hop ((hm.hop_swap hm' u v).mp hu)).2

end Mapping

open Mapping

variable {n first last : Nat} {m m' : Mapping} {parent donor child sibling grandchild : List Nat}

theorem segment_congr {l l' : List Nat} (h : ∀ i : Nat, first ≤ i → i ≤ last → l[i]? = l'[i]?) :
    segment first last l = segment first last l' := by
  apply List.ext_getElem?
  intro k
  rw [getElem?_segment, getElem?_segment]
  split
  case isTrue hk => exact h (first + k) (Nat.le_add_right _ _) (by omega)
  case isFalse => rfl

theorem Crossed.eq_parent (hx : Crossing n first last m parent donor)
    (h : Crossed m first last parent donor child)
    (hx' : Crossing n first last m' child sibling)
    (h' : Crossed m' first last child sibling grandchild)
    (hsibling : ∀ i : Nat, first ≤ i → i ≤ last → sibling[i]? = parent[i]?) :
    grandchild = parent := by
  have hback : m'.Renames n (segment first last parent) (segment first last donor) := by
    rw [← segment_congr hsibling, ← segment_congr h.inside]
    exact hx'.renames
  apply List.ext_getElem?
  intro i
  by_cases hin : first ≤ i ∧ i ≤ last
  · rw [h'.inside i hin.1 hin.2, hsibling i hin.1 hin.2]
  cases hv : parent[i]? with
  | none =>
    have hle : grandchild.length ≤ i := by
      rw [h'.length_eq, h.length_eq]
      exact List.getElem?_eq_none_iff.mp hv
    exact List.getElem?_eq_none hle
  | some v =>
    obtain ⟨w, hw, hend⟩ := h.outside i v hin hv
    obtain ⟨v', hv', hend'⟩ := h'.outside i w hin hw
    have hreturn : m'.EndsIn w v := hend.swap hx.renames hback (hx.stays_out hv hin)
    rw [hv', hend'.unique hreturn]

/-- Crossing the children of two permutations at the same places gives the two permutations back. -/
theorem crossoverAt_involutive {p q : List Nat} (hp : p.Perm (List.range n))
    (hq : q.Perm (List.range n)) (hfirst : first ≤ last) (hlast : last < n) :
    ∃ c₁ c₂, crossoverAt p q first last = .ok (c₁, c₂) ∧
      crossoverAt c₁ c₂ first last = .ok (p, q) := by
  obtain ⟨⟨c₁, c₂⟩, hcross, ⟨m₁, hx₁, hc₁⟩, m₂, hx₂, hc₂⟩ :=
    crossoverAt_yields hp hq hfirst hlast
  obtain ⟨⟨d₁, d₂⟩, hback, ⟨m₁', hx₁', hd₁⟩, m₂', hx₂', hd₂⟩ :=
    crossoverAt_yields (hc₁.perm hx₁) (hc₂.perm hx₂) hfirst hlast
  have hfirstParent : d₁ = p := Crossed.eq_parent hx₁ hc₁ hx₁' hd₁ hc₂.inside
  have hsecondParent : d₂ = q := Crossed.eq_parent hx₂ hc₂ hx₂' hd₂ hc₁.inside
  rw [hfirstParent, hsecondParent] at hback
  exact ⟨c₁, c₂, hcross, hback⟩

theorem crossoverAt_involutive_chain :
    crossoverAt [3, 0, 1, 2, 4, 5] [5, 1, 2, 3, 4, 0] 1 4 =
        .ok ([0, 1, 2, 3, 4, 5], [5, 0, 1, 2, 4, 3]) ∧
      crossoverAt [0, 1, 2, 3, 4, 5] [5, 0, 1, 2, 4, 3] 1 4 =
        .ok ([3, 0, 1, 2, 4, 5], [5, 1, 2, 3, 4, 0]) := by
  have hchildren : crossoverAt [3, 0, 1, 2, 4, 5] [5, 1, 2, 3, 4, 0] 1 4 =
      .ok ([0, 1, 2, 3, 4, 5], [5, 0, 1, 2, 4, 3]) := by rfl
  have hp : [3, 0, 1, 2, 4, 5].Perm (List.range 6) := by decide
  have hq : [5, 1, 2, 3, 4, 0].Perm (List.range 6) := by decide
  have hfirst : 1 ≤ 4 := by decide
  have hlast : 4 < 6 := by decide
  obtain ⟨c₁, c₂, hcross, hback⟩ := crossoverAt_involutive hp hq hfirst hlast
  cases hchildren.symm.trans hcross
  exact ⟨hchildren, hback⟩

end PopulationSearch.Genetic
