import Mathlib.Data.List.Nodup
import Mathlib.Data.List.Perm.Subperm
import Mathlib.Logic.Relation
import PopulationSearch.Genetic.Operators
import PopulationSearch.Proofs.Outcome

/-! Chains of exchanged values. No two values lead to the same one, so a chain that begins outside
never comes back to itself and has ended by the time the hops run out. -/

namespace PopulationSearch.Genetic.Mapping

open Relation

/-- The values below `n` that enter a segment and those that they displace there, one by one. -/
structure Exchange (n : Nat) (incoming displaced : List Nat) : Prop where
  length_eq : incoming.length = displaced.length
  nodup_incoming : incoming.Nodup
  nodup_displaced : displaced.Nodup
  incoming_lt : ∀ v ∈ incoming, v < n
  displaced_lt : ∀ v ∈ displaced, v < n

def Hop (m : Mapping) (v w : Nat) : Prop := m.pairs.lookup v = some w

structure EndsIn (m : Mapping) (v w : Nat) : Prop where
  chain : ReflTransGen m.Hop v w
  last : ∀ u, ¬ m.Hop w u

def Cyclic (m : Mapping) (v : Nat) : Prop := TransGen m.Hop v v

structure Renames (m : Mapping) (n : Nat) (incoming displaced : List Nat) : Prop where
  size_eq : m.size = n
  hop_iff : ∀ v w : Nat, m.Hop v w ↔
    v ≠ w ∧ ∃ k : Nat, incoming[k]? = some v ∧ displaced[k]? = some w

theorem lookup_eq_some_iff_mem {l : List (Nat × Nat)} (h : (l.map Prod.fst).Nodup) {v w : Nat} :
    l.lookup v = some w ↔ (v, w) ∈ l := by
  induction l with
  | nil => simp
  | cons p l ih =>
    obtain ⟨x, y⟩ := p
    rw [List.map_cons, List.nodup_cons] at h
    rw [List.lookup_cons, List.mem_cons, Prod.mk.injEq]
    rcases eq_or_ne v x with rfl | hne
    · have hout : (v, w) ∉ l := fun hmem => h.1 (List.mem_map.mpr ⟨(v, w), hmem, rfl⟩)
      simp [hout, eq_comm]
    · have hbeq : (v == x) = false := beq_eq_false_iff_ne.mpr hne
      simp [hne, hbeq, ih h.2]

theorem ofSegments_eq_ok {n : Nat} {incoming : List Nat} (displaced : List Nat)
    (h : ∀ v ∈ incoming, v < n) : ofSegments incoming displaced n =
      .ok ⟨n, ((incoming.zip displaced).filter fun p => p.1 != p.2).reverse⟩ := by
  refine if_pos (List.all_eq_true.mpr fun p hp => decide_eq_true (h p.1 ?_))
  exact (List.of_mem_zip (List.mem_of_mem_filter hp)).1

theorem ofSegments_yields {n : Nat} {incoming displaced : List Nat}
    (h : Exchange n incoming displaced) :
    Yields (ofSegments incoming displaced n) fun m => m.Renames n incoming displaced := by
  have hzip : ((incoming.zip displaced).map Prod.fst).Nodup := by
    rw [List.map_fst_zip h.length_eq.le]
    exact h.nodup_incoming
  have hnodup : (((incoming.zip displaced).filter fun p => p.1 != p.2).reverse.map
      Prod.fst).Nodup := by
    rw [List.map_reverse, List.nodup_reverse]
    exact hzip.sublist (List.filter_sublist.map Prod.fst)
  refine ⟨_, ofSegments_eq_ok displaced h.incoming_lt, rfl, fun v w => ?_⟩
  rw [Hop, lookup_eq_some_iff_mem hnodup, List.mem_reverse, List.mem_filter,
    List.mem_iff_getElem?, and_comm, bne_iff_ne]
  simp only [List.getElem?_zip_eq_some]

namespace Renames

variable {m : Mapping} {n : Nat} {incoming displaced : List Nat}

theorem mem_of_hop (hm : m.Renames n incoming displaced) {v w : Nat} (h : m.Hop v w) :
    v ∈ incoming ∧ w ∈ displaced := by
  obtain ⟨-, k, hv, hw⟩ := (hm.hop_iff v w).mp h
  exact ⟨List.mem_of_getElem? hv, List.mem_of_getElem? hw⟩

theorem leftUnique (hm : m.Renames n incoming displaced) (h : displaced.Nodup) :
    Relator.LeftUnique m.Hop := by
  intro v v' w hv hv'
  obtain ⟨-, k, hk, hkw⟩ := (hm.hop_iff v w).mp hv
  obtain ⟨-, k', hk', hkw'⟩ := (hm.hop_iff v' w).mp hv'
  have hlt : k < displaced.length := (List.getElem?_eq_some_iff.mp hkw).1
  have hkk : k = k' := (List.getElem?_inj hlt h).mp (hkw.trans hkw'.symm)
  rw [hkk, hk'] at hk
  exact (Option.some.inj hk).symm

end Renames

section Chains

variable {m : Mapping} {v w : Nat}

theorem Hop.mem_keys (h : m.Hop v w) : v ∈ m.pairs.map Prod.fst := by
  obtain ⟨before, after, hpairs, -⟩ := List.lookup_eq_some_iff.mp h
  rw [hpairs]
  simp

theorem follow_of_hop (hv : v < m.size) (h : m.Hop v w) (hops : Nat) :
    m.follow (hops + 1) v = m.follow hops w := by
  have himage : m.image? v = .ok (some w) := (if_pos hv).trans (congrArg Except.ok h)
  rw [follow, himage, ok_bind]

theorem follow_of_last (hv : v < m.size) (h : ∀ w, ¬ m.Hop v w) (hops : Nat) :
    m.follow hops v = .ok v := by
  cases hops with
  | zero => rfl
  | succ hops =>
    have hnone : m.pairs.lookup v = none := Option.eq_none_iff_forall_ne_some.mpr h
    have himage : m.image? v = .ok none := (if_pos hv).trans (congrArg Except.ok hnone)
    rw [follow, himage]
    rfl

theorem Cyclic.of_hop (hunique : Relator.LeftUnique m.Hop) (hw : m.Cyclic w) (h : m.Hop v w) :
    m.Cyclic v := by
  obtain ⟨u, hwu, huw⟩ := TransGen.tail'_iff.mp hw
  rw [hunique huw h] at hwu
  exact .head' h hwu

/-- A chain on no cycle leaves different values behind it, no more of them than there are pairs. -/
theorem follow_ends (hunique : Relator.LeftUnique m.Hop) (hlt : ∀ v w, m.Hop v w → w < m.size)
    (hops : Nat) (behind : List Nat) (hv : v < m.size) (hacyclic : ¬ m.Cyclic v)
    (hnodup : (v :: behind).Nodup) (hchain : ∀ u ∈ behind, TransGen m.Hop u v)
    (henough : m.pairs.length ≤ hops + behind.length) :
    Yields (m.follow hops v) (m.EndsIn v) := by
  induction hops generalizing v behind with
  | zero =>
    -- with one hop more, the values behind would be keys of more pairs than there are
    refine .ok ⟨.refl, fun w hvw => ?_⟩
    have hsub : v :: behind ⊆ m.pairs.map Prod.fst := by
      refine List.cons_subset.mpr ⟨hvw.mem_keys, fun u hu => ?_⟩
      obtain ⟨x, hux, -⟩ := TransGen.head'_iff.mp (hchain u hu)
      exact hux.mem_keys
    have hle := (hnodup.subperm hsub).length_le
    rw [List.length_cons, List.length_map] at hle
    omega
  | succ hops ih =>
    by_cases hlast : ∀ w, ¬ m.Hop v w
    · rw [follow_of_last hv hlast]
      exact .ok ⟨.refl, hlast⟩
    obtain ⟨w, hvw⟩ := not_forall_not.mp hlast
    have hacyclic' : ¬ m.Cyclic w := fun hw => hacyclic (hw.of_hop hunique hvw)
    have hchain' : ∀ u ∈ v :: behind, TransGen m.Hop u w := by
      rw [List.forall_mem_cons]
      exact ⟨.single hvw, fun u hu => (hchain u hu).tail hvw⟩
    have hfresh : w ∉ v :: behind := fun hmem => hacyclic' (hchain' w hmem)
    have henough' : m.pairs.length ≤ hops + (v :: behind).length := by
      rw [List.length_cons]
      omega
    rw [follow_of_hop hv hvw]
    exact (ih (v :: behind) (hlt v w hvw) hacyclic' (hnodup.cons hfresh) hchain' henough').mono
      fun u hu => ⟨.head hvw hu.chain, hu.last⟩

end Chains

namespace Renames

variable {m : Mapping} {n : Nat} {incoming displaced : List Nat}

theorem lt_size_of_hop (hm : m.Renames n incoming displaced) (h : Exchange n incoming displaced)
    {v w : Nat} (hop : m.Hop v w) : w < m.size := by
  rw [hm.size_eq]
  exact h.displaced_lt w (hm.mem_of_hop hop).2

theorem not_cyclic (hm : m.Renames n incoming displaced) {v : Nat} (hout : v ∉ displaced) :
    ¬ m.Cyclic v := by
  intro hcycle
  obtain ⟨u, -, hu⟩ := TransGen.tail'_iff.mp hcycle
  exact hout (hm.mem_of_hop hu).2

theorem follow_yields (hm : m.Renames n incoming displaced) (h : Exchange n incoming displaced)
    {v : Nat} (hv : v < n) (hacyclic : ¬ m.Cyclic v) {hops : Nat}
    (henough : m.pairs.length ≤ hops) : Yields (m.follow hops v) (m.EndsIn v) := by
  have hsize : v < m.size := hm.size_eq.symm ▸ hv
  exact follow_ends (hm.leftUnique h.nodup_displaced) (fun _ _ => hm.lt_size_of_hop h) hops []
    hsize hacyclic (List.nodup_singleton v) (List.forall_mem_nil _) henough

example : follow ⟨4, [(1, 0), (2, 1), (3, 2)]⟩ 3 3 = .ok 0 ∧
    follow ⟨4, [(1, 0), (2, 1), (3, 2)]⟩ 2 3 = .ok 1 := ⟨rfl, rfl⟩

theorem resolve_yields (hm : m.Renames n incoming displaced) (h : Exchange n incoming displaced)
    {v : Nat} (hv : v < n) (hout : v ∉ displaced) : Yields (m.resolve v) (m.EndsIn v) :=
  hm.follow_yields h hv (hm.not_cyclic hout) (Nat.le_succ _)

end Renames

namespace EndsIn

variable {m : Mapping} {n : Nat} {incoming displaced : List Nat} {v w : Nat}

theorem eq_or_mem_displaced (h : m.EndsIn v w) (hm : m.Renames n incoming displaced) :
    w = v ∨ w ∈ displaced := by
  rcases h.chain.cases_tail with heq | ⟨u, -, hu⟩
  · exact .inl heq
  · exact .inr (hm.mem_of_hop hu).2

theorem eq_of_not_mem (h : m.EndsIn v w) (hm : m.Renames n incoming displaced)
    (hv : v ∉ incoming) : w = v := by
  rcases h.chain.cases_head with heq | ⟨u, hu, -⟩
  · exact heq.symm
  · exact absurd (hm.mem_of_hop hu).1 hv

theorem not_mem_incoming (h : m.EndsIn v w) (hm : m.Renames n incoming displaced)
    (hx : Exchange n incoming displaced) (hv : v ∉ displaced) : w ∉ incoming := by
  intro hw
  obtain ⟨k, hk⟩ := List.mem_iff_getElem?.mp hw
  have hlt : k < displaced.length := by
    rw [← hx.length_eq]
    exact (List.getElem?_eq_some_iff.mp hk).1
  have hk' : displaced[k]? = some displaced[k] := List.getElem?_eq_getElem hlt
  rcases eq_or_ne w displaced[k] with heq | hne
  -- `w` displaces itself, so nothing else can have led to it
  · rcases h.chain.cases_tail with rfl | ⟨u, -, hu⟩
    · exact hv (heq ▸ List.getElem_mem hlt)
    · obtain ⟨hne, k', hu', hw'⟩ := (hm.hop_iff u w).mp hu
      rw [← heq] at hk'
      have hkk := (List.getElem?_inj hlt hx.nodup_displaced).mp (hk'.trans hw'.symm)
      rw [hkk, hu'] at hk
      exact hne (Option.some.inj hk)
  · exact h.last _ ((hm.hop_iff w _).mpr ⟨hne, k, hk, hk'⟩)

theorem injective {v' : Nat} (h : m.EndsIn v w) (h' : m.EndsIn v' w)
    (hm : m.Renames n incoming displaced) (hnodup : displaced.Nodup) (hv : v ∉ displaced)
    (hv' : v' ∉ displaced) : v = v' := by
  have hback : Relator.RightUnique (Function.swap m.Hop) := fun a b c hb hc =>
    hm.leftUnique hnodup hb hc
  have hstart {a b : Nat} (hb : b ∉ displaced) (hab : ReflTransGen m.Hop a b) : a = b := by
    rcases hab.cases_tail with heq | ⟨u, -, hu⟩
    · exact heq.symm
    · exact absurd (hm.mem_of_hop hu).2 hb
  rcases ReflTransGen.total_of_right_unique hback h.chain.swap h'.chain.swap with hvv | hvv
  · exact (hstart hv hvv.swap).symm
  · exact hstart hv' hvv.swap

end EndsIn
end PopulationSearch.Genetic.Mapping
