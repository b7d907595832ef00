import PopulationSearch.Proofs.Mapping
import PopulationSearch.Proofs.Tour

/-! A child has the other parent's segment, and outside of it the ends of the chains that begin with
its own parent's values. These are all different, so it is a permutation. -/

namespace PopulationSearch.Genetic

open Mapping

variable {n first last : Nat}

theorem getElem?_segment (l : List Nat) (k : Nat) :
    (segment first last l)[k]? = if k < last + 1 - first then l[first + k]? else none := by
  rw [segment, List.getElem?_take, List.getElem?_drop]

theorem mem_segment {l : List Nat} {v : Nat} :
    v ∈ segment first last l ↔ ∃ i, first ≤ i ∧ i ≤ last ∧ l[i]? = some v := by
  rw [List.mem_iff_getElem?]
  constructor
  · rintro ⟨k, hk⟩
    rw [getElem?_segment] at hk
    split at hk
    case isTrue hlt => exact ⟨first + k, by omega, by omega, hk⟩
    case isFalse => cases hk
  · rintro ⟨i, hfirst, hlast, hi⟩
    refine ⟨i - first, ?_⟩
    rw [getElem?_segment, if_pos (by omega), Nat.add_sub_cancel' hfirst, hi]

theorem length_segment {l : List Nat} (h : last < l.length) :
    (segment first last l).length = last + 1 - first := by
  rw [segment, List.length_take, List.length_drop]
  omega

theorem segment_sublist (l : List Nat) : (segment first last l).Sublist l :=
  (List.take_sublist _ _).trans (List.drop_sublist _ _)

theorem not_mem_segment {l : List Nat} (hl : l.Nodup) {i v : Nat} (hv : l[i]? = some v)
    (hi : ¬ (first ≤ i ∧ i ≤ last)) : v ∉ segment first last l := by
  intro hmem
  obtain ⟨i', hfirst, hlast, hv'⟩ := mem_segment.mp hmem
  have hlt : i < l.length := (List.getElem?_eq_some_iff.mp hv).1
  have heq : i = i' := (List.getElem?_inj hlt hl).mp (hv.trans hv'.symm)
  subst heq
  exact hi ⟨hfirst, hlast⟩

theorem exchange_segments {p q : List Nat} (hp : p.Perm (List.range n))
    (hq : q.Perm (List.range n)) (hlast : last < n) :
    Exchange n (segment first last p) (segment first last q) where
  length_eq := by
    have hp' : last < p.length := (Tour.length_of_perm hp).symm ▸ hlast
    have hq' : last < q.length := (Tour.length_of_perm hq).symm ▸ hlast
    rw [length_segment hp', length_segment hq']
  nodup_incoming := (Tour.nodup_of_perm hp).sublist (segment_sublist p)
  nodup_displaced := (Tour.nodup_of_perm hq).sublist (segment_sublist q)
  incoming_lt := fun _ hv => Tour.lt_of_perm hp ((segment_sublist p).mem hv)
  displaced_lt := fun _ hv => Tour.lt_of_perm hq ((segment_sublist q).mem hv)

structure Crossing (n first last : Nat) (m : Mapping) (parent donor : List Nat) : Prop where
  parent_perm : parent.Perm (List.range n)
  donor_perm : donor.Perm (List.range n)
  last_lt : last < n
  renames : m.Renames n (segment first last donor) (segment first last parent)

structure Crossed (m : Mapping) (first last : Nat) (parent donor child : List Nat) : Prop where
  length_eq : child.length = parent.length
  inside : ∀ i : Nat, first ≤ i → i ≤ last → child[i]? = donor[i]?
  outside : ∀ i v : Nat, ¬ (first ≤ i ∧ i ≤ last) → parent[i]? = some v →
    ∃ w, child[i]? = some w ∧ m.EndsIn v w

variable {m : Mapping} {parent donor child : List Nat}

namespace Crossing

theorem exchange (h : Crossing n first last m parent donor) :
    Exchange n (segment first last donor) (segment first last parent) :=
  exchange_segments h.donor_perm h.parent_perm h.last_lt

theorem exists_donor (h : Crossing n first last m parent donor) {i v : Nat}
    (hv : parent[i]? = some v) : ∃ b, donor[i]? = some b := by
  have hlt : i < parent.length := (List.getElem?_eq_some_iff.mp hv).1
  rw [Tour.length_of_perm h.parent_perm, ← Tour.length_of_perm h.donor_perm] at hlt
  exact ⟨donor[i], List.getElem?_eq_getElem hlt⟩

theorem stays_out (h : Crossing n first last m parent donor) {i v : Nat}
    (hv : parent[i]? = some v) (hi : ¬ (first ≤ i ∧ i ≤ last)) :
    v ∉ segment first last parent :=
  not_mem_segment (Tour.nodup_of_perm h.parent_perm) hv hi

end Crossing

theorem getElem?_genes {i a b j : Nat} : (parent.zip donor).zipIdx[i]? = some ((a, b), j) ↔
    (parent[i]? = some a ∧ donor[i]? = some b) ∧ i = j := by
  simp [List.getElem?_zipIdx, List.getElem?_zip_eq_some, Option.map_eq_some_iff, and_assoc]

theorem offspring_yields (h : Crossing n first last m parent donor) :
    Yields (offspring m parent donor first last) (Crossed m first last parent donor) := by
  have hgenes : Yields (offspring m parent donor first last) (List.Forall₂
      (fun gene w => if first ≤ gene.2 ∧ gene.2 ≤ last then w = gene.1.2 else m.EndsIn gene.1.1 w)
      (parent.zip donor).zipIdx) := by
    refine Yields.mapM _ ?_
    rintro ⟨⟨a, b⟩, i⟩ hmem
    obtain ⟨j, hj⟩ := List.mem_iff_getElem?.mp hmem
    obtain ⟨⟨ha, -⟩, rfl⟩ := getElem?_genes.mp hj
    dsimp only
    split
    case isTrue => exact .ok rfl
    case isFalse hout =>
      have halt : a < n := Tour.lt_of_perm h.parent_perm (List.mem_of_getElem? ha)
      exact h.renames.resolve_yields h.exchange halt (h.stays_out ha hout)
  refine hgenes.mono fun child hchild => ?_
  have hlen : donor.length = parent.length :=
    (Tour.length_of_perm h.donor_perm).trans (Tour.length_of_perm h.parent_perm).symm
  constructor
  case length_eq =>
    rw [← hchild.length_eq, List.length_zipIdx, List.length_zip, hlen, Nat.min_self]
  case inside =>
    intro i hfirst hle
    have hlt : i < parent.length := by
      rw [Tour.length_of_perm h.parent_perm]
      exact hle.trans_lt h.last_lt
    have ha : parent[i]? = some parent[i] := List.getElem?_eq_getElem hlt
    obtain ⟨b, hb⟩ := h.exists_donor ha
    obtain ⟨w, hw, hwb⟩ :=
      exists_getElem?_of_forall₂ hchild (getElem?_genes.mpr ⟨⟨ha, hb⟩, rfl⟩)
    rw [if_pos ⟨hfirst, hle⟩] at hwb
    rw [hw, hb, hwb]
  case outside =>
    intro i v hout hv
    obtain ⟨b, hb⟩ := h.exists_donor hv
    obtain ⟨w, hw, hend⟩ :=
      exists_getElem?_of_forall₂ hchild (getElem?_genes.mpr ⟨⟨hv, hb⟩, rfl⟩)
    rw [if_neg hout] at hend
    exact ⟨w, hw, hend⟩

structure PartiallyMapped (n first last : Nat) (parent donor child : List Nat) : Prop where
  perm : child.Perm (List.range n)
  inside : ∀ i : Nat, first ≤ i → i ≤ last → child[i]? = donor[i]?
  kept_iff : ∀ i v : Nat, ¬ (first ≤ i ∧ i ≤ last) → parent[i]? = some v →
    (child[i]? = some v ↔ v ∉ segment first last donor)
  repaired : ∀ i v : Nat, ¬ (first ≤ i ∧ i ≤ last) → parent[i]? = some v →
    v ∈ segment first last donor →
    ∃ w, child[i]? = some w ∧ w ∈ segment first last parent ∧ w ∉ segment first last donor
  agreed : ∀ i v : Nat, parent[i]? = some v → donor[i]? = some v → child[i]? = some v

namespace Crossed

theorem exists_parent (h : Crossed m first last parent donor child) {i w : Nat}
    (hw : child[i]? = some w) (hout : ¬ (first ≤ i ∧ i ≤ last)) :
    ∃ v, parent[i]? = some v ∧ m.EndsIn v w := by
  have hlt : i < parent.length := by
    rw [← h.length_eq]
    exact (List.getElem?_eq_some_iff.mp hw).1
  have hv : parent[i]? = some parent[i] := List.getElem?_eq_getElem hlt
  obtain ⟨w', hw', hend⟩ := h.outside i parent[i] hout hv
  cases hw.symm.trans hw'
  exact ⟨parent[i], hv, hend⟩

theorem not_mem_donor (h : Crossed m first last parent donor child)
    (hx : Crossing n first last m parent donor) {i w : Nat} (hw : child[i]? = some w)
    (hout : ¬ (first ≤ i ∧ i ≤ last)) : w ∉ segment first last donor := by
  obtain ⟨v, hv, hend⟩ := h.exists_parent hw hout
  exact hend.not_mem_incoming hx.renames hx.exchange (hx.stays_out hv hout)

theorem place_eq (h : Crossed m first last parent donor child)
    (hx : Crossing n first last m parent donor) {i j w : Nat} (hi : child[i]? = some w)
    (hj : child[j]? = some w) : i = j := by
  have hdonor {k : Nat} (hk : child[k]? = some w) (hin : first ≤ k ∧ k ≤ last) :
      donor[k]? = some w := (h.inside k hin.1 hin.2).symm.trans hk
  by_cases hin : first ≤ i ∧ i ≤ last <;> by_cases hjn : first ≤ j ∧ j ≤ last
  · have hlt : i < donor.length := (List.getElem?_eq_some_iff.mp (hdonor hi hin)).1
    have hsame := (hdonor hi hin).trans (hdonor hj hjn).symm
    exact (List.getElem?_inj hlt (Tour.nodup_of_perm hx.donor_perm)).mp hsame
  · have hmem := mem_segment.mpr ⟨i, hin.1, hin.2, hdonor hi hin⟩
    exact absurd hmem (h.not_mem_donor hx hj hjn)
  · have hmem := mem_segment.mpr ⟨j, hjn.1, hjn.2, hdonor hj hjn⟩
    exact absurd hmem (h.not_mem_donor hx hi hin)
  -- outside of it two chains with one end have one beginning
  · obtain ⟨v, hv, hend⟩ := h.exists_parent hi hin
    obtain ⟨v', hv', hend'⟩ := h.exists_parent hj hjn
    have heq : v = v' := hend.injective hend' hx.renames hx.exchange.nodup_displaced
      (hx.stays_out hv hin) (hx.stays_out hv' hjn)
    have hlt : i < parent.length := (List.getElem?_eq_some_iff.mp hv).1
    rw [heq, ← hv'] at hv
    exact (List.getElem?_inj hlt (Tour.nodup_of_perm hx.parent_perm)).mp hv

theorem perm (h : Crossed m first last parent donor child)
    (hx : Crossing n first last m parent donor) : child.Perm (List.range n) := by
  apply Tour.perm_of_nodup
  · rw [List.nodup_iff_getElem?_ne_getElem?]
    intro i j hij hj heq
    rw [List.getElem?_eq_getElem hj] at heq
    exact Nat.ne_of_lt hij (h.place_eq hx heq (List.getElem?_eq_getElem hj))
  · rw [h.length_eq, Tour.length_of_perm hx.parent_perm]
  · intro w hmem
    obtain ⟨i, hw⟩ := List.mem_iff_getElem?.mp hmem
    by_cases hin : first ≤ i ∧ i ≤ last
    · rw [h.inside i hin.1 hin.2] at hw
      exact Tour.lt_of_perm hx.donor_perm (List.mem_of_getElem? hw)
    · obtain ⟨v, hv, hend⟩ := h.exists_parent hw hin
      rcases hend.eq_or_mem_displaced hx.renames with rfl | hdisplaced
      · exact Tour.lt_of_perm hx.parent_perm (List.mem_of_getElem? hv)
      · exact hx.exchange.displaced_lt w hdisplaced

theorem kept (h : Crossed m first last parent donor child)
    (hx : Crossing n first last m parent donor) {i v : Nat} (hout : ¬ (first ≤ i ∧ i ≤ last))
    (hv : parent[i]? = some v) (hfree : v ∉ segment first last donor) : child[i]? = some v := by
  obtain ⟨w, hw, hend⟩ := h.outside i v hout hv
  rw [hw, hend.eq_of_not_mem hx.renames hfree]

theorem partiallyMapped (h : Crossed m first last parent donor child)
    (hx : Crossing n first last m parent donor) :
    PartiallyMapped n first last parent donor child where
  perm := h.perm hx
  inside := h.inside
  kept_iff := fun i v hout hv =>
    ⟨fun hw => h.not_mem_donor hx hw hout, h.kept hx hout hv⟩
  repaired := by
    intro i v hout hv hmem
    obtain ⟨w, hw, hend⟩ := h.outside i v hout hv
    have hfree := h.not_mem_donor hx hw hout
    refine ⟨w, hw, ?_, hfree⟩
    rcases hend.eq_or_mem_displaced hx.renames with rfl | hdisplaced
    · exact absurd hmem hfree
    · exact hdisplaced
  agreed := by
    intro i v hv hdonor
    by_cases hin : first ≤ i ∧ i ≤ last
    · rw [h.inside i hin.1 hin.2, hdonor]
    · have hfree := not_mem_segment (Tour.nodup_of_perm hx.donor_perm) hdonor hin
      exact h.kept hx hin hv hfree

end Crossed

theorem crossoverAt_yields {p q : List Nat} (hp : p.Perm (List.range n))
    (hq : q.Perm (List.range n)) (hfirst : first ≤ last) (hlast : last < n) :
    Yields (crossoverAt p q first last) fun children =>
      (∃ m, Crossing n first last m p q ∧ Crossed m first last p q children.1) ∧
        ∃ m, Crossing n first last m q p ∧ Crossed m first last q p children.2 := by
  have hplen := Tour.length_of_perm hp
  have hqlen := Tour.length_of_perm hq
  have hequal : ¬ p.length ≠ q.length := by simp [hplen, hqlen]
  have hnonempty : ¬ p.length = 0 := by omega
  have hsegment : first ≤ last ∧ last < p.length := ⟨hfirst, hplen.symm ▸ hlast⟩
  rw [crossoverAt, if_neg hequal, if_neg hnonempty, if_pos hsegment, hplen]
  obtain ⟨m₁, hsegments₁, hm₁⟩ := ofSegments_yields (exchange_segments hq hp hlast)
  obtain ⟨m₂, hsegments₂, hm₂⟩ := ofSegments_yields (exchange_segments hp hq hlast)
  have hx₁ : Crossing n first last m₁ p q := ⟨hp, hq, hlast, hm₁⟩
  have hx₂ : Crossing n first last m₂ q p := ⟨hq, hp, hlast, hm₂⟩
  obtain ⟨c₁, hchild₁, hc₁⟩ := offspring_yields hx₁
  obtain ⟨c₂, hchild₂, hc₂⟩ := offspring_yields hx₂
  apply Yields.eq_bind hsegments₁
  apply Yields.eq_bind hsegments₂
  apply Yields.eq_bind hchild₁
  apply Yields.eq_bind hchild₂
  exact .pure ⟨⟨m₁, hx₁, hc₁⟩, m₂, hx₂, hc₂⟩

/-- Crossover of two permutations succeeds, and both children are partially mapped. -/
theorem crossoverAt_partiallyMapped {p q : List Nat} (hp : p.Perm (List.range n))
    (hq : q.Perm (List.range n)) (hfirst : first ≤ last) (hlast : last < n) :
    ∃ c₁ c₂, crossoverAt p q first last = .ok (c₁, c₂) ∧
      PartiallyMapped n first last p q c₁ ∧ PartiallyMapped n first last q p c₂ := by
  obtain ⟨⟨c₁, c₂⟩, hcross, ⟨m₁, hx₁, hc₁⟩, m₂, hx₂, hc₂⟩ :=
    crossoverAt_yields hp hq hfirst hlast
  exact ⟨c₁, c₂, hcross, hc₁.partiallyMapped hx₁, hc₂.partiallyMapped hx₂⟩

theorem crossoverAt_partiallyMapped_chain :
    crossoverAt [3, 0, 1, 2, 5, 4] [0, 1, 2, 3, 4, 5] 1 3 =
        .ok ([0, 1, 2, 3, 5, 4], [3, 0, 1, 2, 4, 5]) ∧
      PartiallyMapped 6 1 3 [3, 0, 1, 2, 5, 4] [0, 1, 2, 3, 4, 5] [0, 1, 2, 3, 5, 4] ∧
      PartiallyMapped 6 1 3 [0, 1, 2, 3, 4, 5] [3, 0, 1, 2, 5, 4] [3, 0, 1, 2, 4, 5] := by
  have hchildren : crossoverAt [3, 0, 1, 2, 5, 4] [0, 1, 2, 3, 4, 5] 1 3 =
      .ok ([0, 1, 2, 3, 5, 4], [3, 0, 1, 2, 4, 5]) := by rfl
  have hp : [3, 0, 1, 2, 5, 4].Perm (List.range 6) := by decide
  have hq : [0, 1, 2, 3, 4, 5].Perm (List.range 6) := by decide
  have hfirst : 1 ≤ 3 := by decide
  have hlast : 3 < 6 := by decide
  obtain ⟨c₁, c₂, hcross, h₁, h₂⟩ := crossoverAt_partiallyMapped hp hq hfirst hlast
  cases hchildren.symm.trans hcross
  exact ⟨hchildren, h₁, h₂⟩

end PopulationSearch.Genetic
