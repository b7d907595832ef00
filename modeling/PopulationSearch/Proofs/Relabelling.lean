import Mathlib.Data.Set.Function
import PopulationSearch.Proofs.Agreement
import PopulationSearch.Proofs.Crossover

/-! Crossover under other names: chains through a renamed mapping make the same hops. -/

namespace PopulationSearch.Genetic

variable {n first last : Nat} {σ : Nat → Nat}

structure Renaming (n : Nat) (σ : Nat → Nat) : Prop where
  lt : ∀ v < n, σ v < n
  injective : ∀ v < n, ∀ w < n, σ v = σ w → v = w

theorem Renaming.eq_iff (h : Renaming n σ) {v w : Nat} (hv : v < n) (hw : w < n) :
    σ v = σ w ↔ v = w := ⟨h.injective v hv w hw, congrArg σ⟩

theorem renaming_of_bijOn (h : Set.BijOn σ {v | v < n} {v | v < n}) : Renaming n σ where
  lt := fun _ hv => h.mapsTo hv
  injective := fun _ hv _ hw heq => h.injOn hv hw heq

namespace Mapping

structure Below (n : Nat) (m : Mapping) : Prop where
  size_eq : m.size = n
  pairs : ∀ p ∈ m.pairs, p.1 < n ∧ p.2 < n

def rename (σ : Nat → Nat) (m : Mapping) : Mapping := ⟨m.size, m.pairs.map (Prod.map σ σ)⟩

theorem lookup_rename (hσ : Renaming n σ) {pairs : List (Nat × Nat)}
    (hpairs : ∀ p ∈ pairs, p.1 < n ∧ p.2 < n) {v : Nat} (hv : v < n) :
    (pairs.map (Prod.map σ σ)).lookup (σ v) = (pairs.lookup v).map σ := by
  induction pairs with
  | nil => rfl
  | cons p pairs ih =>
    obtain ⟨⟨hp, -⟩, hpairs⟩ := List.forall_mem_cons.mp hpairs
    have hkey : (σ v == σ p.1) = (v == p.1) := by
      rw [Bool.eq_iff_iff, beq_iff_eq, beq_iff_eq, hσ.eq_iff hv hp]
    rw [List.map_cons, List.lookup_cons, List.lookup_cons, Prod.map_fst, hkey]
    cases v == p.1 with
    | true => rfl
    | false => exact ih hpairs

variable {m : Mapping}

theorem Below.lt_of_lookup (hm : m.Below n) {v w : Nat} (h : m.pairs.lookup v = some w) :
    w < n := by
  obtain ⟨before, after, hpairs, -⟩ := List.lookup_eq_some_iff.mp h
  refine (hm.pairs (v, w) ?_).2
  rw [hpairs]
  exact List.mem_append_right _ (List.mem_cons_self ..)

theorem follow_rename (hσ : Renaming n σ) (hm : m.Below n) (hops : Nat) {v : Nat} (hv : v < n) :
    (m.rename σ).follow hops (σ v) = σ <$> m.follow hops v := by
  induction hops generalizing v with
  | zero => rfl
  | succ hops ih =>
    have hsize : v < m.size := hm.size_eq.symm ▸ hv
    have hsize' : σ v < (m.rename σ).size := hm.size_eq.symm ▸ hσ.lt v hv
    have himage : m.image? v = .ok (m.pairs.lookup v) := if_pos hsize
    have himage' : (m.rename σ).image? (σ v) = .ok ((m.pairs.lookup v).map σ) := by
      rw [← lookup_rename hσ hm.pairs hv]
      exact if_pos hsize'
    rw [follow, follow, himage, himage', ok_bind, ok_bind]
    cases hnext : m.pairs.lookup v with
    | none => rfl
    | some w => exact ih (hm.lt_of_lookup hnext)

theorem resolve_rename (hσ : Renaming n σ) (hm : m.Below n) {v : Nat} (hv : v < n) :
    (m.rename σ).resolve (σ v) = σ <$> m.resolve v := by
  have hlen : (m.rename σ).pairs.length = m.pairs.length := List.length_map ..
  rw [resolve, resolve, hlen]
  exact follow_rename hσ hm _ hv

theorem ofSegments_rename (hσ : Renaming n σ) {incoming displaced : List Nat}
    (hincoming : ∀ v ∈ incoming, v < n) (hdisplaced : ∀ v ∈ displaced, v < n) :
    ∃ m : Mapping, m.Below n ∧ ofSegments incoming displaced n = .ok m ∧
      ofSegments (incoming.map σ) (displaced.map σ) n = .ok (m.rename σ) := by
  have hmem : ∀ p ∈ incoming.zip displaced, p.1 < n ∧ p.2 < n := by
    intro p hp
    obtain ⟨hfrom, hto⟩ := List.of_mem_zip hp
    exact ⟨hincoming p.1 hfrom, hdisplaced p.2 hto⟩
  have hrenamed : ∀ v ∈ incoming.map σ, v < n := by
    intro v hv
    obtain ⟨u, hu, rfl⟩ := List.mem_map.mp hv
    exact hσ.lt u (hincoming u hu)
  have hpairs : ((incoming.map σ).zip (displaced.map σ)).filter (fun p => p.1 != p.2) =
      ((incoming.zip displaced).filter fun p => p.1 != p.2).map (Prod.map σ σ) := by
    rw [List.zip_map, List.filter_map]
    congr 1
    apply List.filter_congr
    intro p hp
    rw [Bool.eq_iff_iff, Function.comp_apply, bne_iff_ne, bne_iff_ne]
    exact not_congr (hσ.eq_iff (hmem p hp).1 (hmem p hp).2)
  refine ⟨_, ⟨rfl, fun p hp => ?_⟩, ofSegments_eq_ok displaced hincoming, ?_⟩
  · exact hmem p (List.mem_of_mem_filter (List.mem_reverse.mp hp))
  · rw [ofSegments_eq_ok _ hrenamed, hpairs, ← List.map_reverse]
    rfl

end Mapping

open Mapping

theorem segment_map (f : Nat → Nat) (l : List Nat) :
    segment first last (l.map f) = (segment first last l).map f := by
  rw [segment, segment, List.map_take, List.map_drop]

theorem offspring_rename (hσ : Renaming n σ) {m : Mapping} (hm : m.Below n)
    {parent : List Nat} (hparent : ∀ v ∈ parent, v < n) (donor : List Nat) :
    offspring (m.rename σ) (parent.map σ) (donor.map σ) first last =
      List.map σ <$> offspring m parent donor first last := by
  rw [offspring, offspring, List.zip_map, List.zipIdx_map, List.mapM_map]
  refine mapM_comm _ fun gene hgene => ?_
  have hvalue : gene.1.1 < n :=
    hparent _ (List.of_mem_zip (List.fst_mem_of_mem_zipIdx hgene)).1
  dsimp only [Function.comp_apply, Prod.map_fst, Prod.map_snd, id_eq]
  split
  case isTrue => rfl
  case isFalse => exact resolve_rename hσ hm hvalue

theorem crossoverAt_rename {p q : List Nat} (hσ : Renaming p.length σ)
    (hp : ∀ v ∈ p, v < p.length) (hq : ∀ v ∈ q, v < p.length) :
    crossoverAt (p.map σ) (q.map σ) first last =
      Prod.map (List.map σ) (List.map σ) <$> crossoverAt p q first last := by
  have hsegment {l : List Nat} (hl : ∀ v ∈ l, v < p.length) :
      ∀ v ∈ segment first last l, v < p.length := fun v hv => hl v ((segment_sublist l).mem hv)
  obtain ⟨m₁, hm₁, hsegments₁, hsegments₁'⟩ := ofSegments_rename hσ (hsegment hq) (hsegment hp)
  obtain ⟨m₂, hm₂, hsegments₂, hsegments₂'⟩ := ofSegments_rename hσ (hsegment hp) (hsegment hq)
  simp only [crossoverAt, List.length_map, segment_map, hsegments₁, hsegments₁', hsegments₂,
    hsegments₂', ok_bind, offspring_rename hσ hm₁ hp, offspring_rename hσ hm₂ hq]
  split
  case isTrue => rfl
  case isFalse =>
  split
  case isTrue => rfl
  case isFalse =>
  split
  case isFalse => rfl
  case isTrue => cases offspring m₁ p q first last <;> cases offspring m₂ q p first last <;> rfl

/-- Renaming the cities of two permutations renames the cities of their children. -/
theorem crossoverAt_relabelled (hσ : Set.BijOn σ {v | v < n} {v | v < n}) {p q : List Nat}
    (hp : p.Perm (List.range n)) (hq : q.Perm (List.range n)) (hfirst : first ≤ last)
    (hlast : last < n) :
    ∃ c₁ c₂, crossoverAt p q first last = .ok (c₁, c₂) ∧
      crossoverAt (p.map σ) (q.map σ) first last = .ok (c₁.map σ, c₂.map σ) := by
  obtain ⟨⟨c₁, c₂⟩, hcross, -⟩ := crossoverAt_yields hp hq hfirst hlast
  obtain rfl := Tour.length_of_perm hp
  refine ⟨c₁, c₂, hcross, ?_⟩
  rw [crossoverAt_rename (renaming_of_bijOn hσ) (fun _ => Tour.lt_of_perm hp)
    (fun _ => Tour.lt_of_perm hq), hcross]
  rfl

theorem crossoverAt_relabelled_chain :
    crossoverAt [3, 0, 1, 2, 5, 4] [0, 1, 2, 3, 4, 5] 1 3 =
        .ok ([0, 1, 2, 3, 5, 4], [3, 0, 1, 2, 4, 5]) ∧
      crossoverAt [2, 5, 4, 3, 0, 1] [5, 4, 3, 2, 1, 0] 1 3 =
        .ok ([5, 4, 3, 2, 0, 1], [2, 5, 4, 3, 1, 0]) := by
  have hchildren : crossoverAt [3, 0, 1, 2, 5, 4] [0, 1, 2, 3, 4, 5] 1 3 =
      .ok ([0, 1, 2, 3, 5, 4], [3, 0, 1, 2, 4, 5]) := by rfl
  have hmaps : Set.MapsTo (5 - ·) {v | v < 6} {v | v < 6} := fun v _ =>
    Nat.lt_succ_of_le (Nat.sub_le 5 v)
  have hback : Set.LeftInvOn (5 - ·) (5 - ·) {v | v < 6} := fun _ hv =>
    Nat.sub_sub_self (Nat.le_of_lt_succ hv)
  have hσ : Set.BijOn (5 - ·) {v | v < 6} {v | v < 6} :=
    Set.InvOn.bijOn ⟨hback, hback⟩ hmaps hmaps
  have hp : [3, 0, 1, 2, 5, 4].Perm (List.range 6) := by decide
  have hq : [0, 1, 2, 3, 4, 5].Perm (List.range 6) := by decide
  have hfirst : 1 ≤ 3 := by decide
  have hlast : 3 < 6 := by decide
  obtain ⟨c₁, c₂, hcross, hrenamed⟩ := crossoverAt_relabelled hσ hp hq hfirst hlast
  cases hchildren.symm.trans hcross
  exact ⟨hchildren, hrenamed⟩

end PopulationSearch.Genetic
