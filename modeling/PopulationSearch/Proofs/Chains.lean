import Mathlib.Data.Set.Function
import PopulationSearch.Proofs.Reversal

/-! What every value resolves to. The chains from the values that stayed outside end with those that
did not enter, and the mapping of the segments the other way round leads back. -/

namespace PopulationSearch.Genetic.Mapping

open Relation

variable {m m' : Mapping} {n : Nat} {incoming displaced : List Nat} {v w : Nat}
  {value value' : Nat → Nat}

def SameCycle (m : Mapping) (v w : Nat) : Prop := TransGen m.Hop v w ∧ TransGen m.Hop w v

theorem Cyclic.sameCycle (hv : m.Cyclic v) (h : ReflTransGen m.Hop v w) : m.SameCycle v w := by
  induction h with
  | refl => exact ⟨hv, hv⟩
  | @tail x y _ hxy ih =>
    obtain ⟨hvx, hxv⟩ := ih
    obtain ⟨u, hxu, huv⟩ := TransGen.head'_iff.mp hxv
    rw [m.rightUnique_hop hxu hxy] at huv
    exact ⟨hvx.tail hxy, .trans_right huv hv⟩

theorem follow_reaches (hlt : ∀ v w, m.Hop v w → w < m.size) (hops : Nat) (hv : v < m.size) :
    Yields (m.follow hops v) (ReflTransGen m.Hop v) := by
  induction hops generalizing v with
  | zero => exact .ok .refl
  | succ hops ih =>
    by_cases hlast : ∀ w, ¬ m.Hop v w
    · rw [follow_of_last hv hlast]
      exact .ok .refl
    obtain ⟨w, hvw⟩ := not_forall_not.mp hlast
    rw [follow_of_hop hv hvw]
    exact (ih (hlt v w hvw)).mono fun _ => .head hvw

theorem Exchange.symm (h : Exchange n incoming displaced) : Exchange n displaced incoming where
  length_eq := h.length_eq.symm
  nodup_incoming := h.nodup_displaced
  nodup_displaced := h.nodup_incoming
  incoming_lt := h.displaced_lt
  displaced_lt := h.incoming_lt

/-- What a mapping resolves the values below `n` to. -/
structure Resolves (m : Mapping) (n : Nat) (value : Nat → Nat) : Prop where
  resolve_eq : ∀ v < n, m.resolve v = .ok (value v)
  endsIn_iff : ∀ v < n, ¬ m.Cyclic v → ∀ w, m.EndsIn v w ↔ w = value v
  uncut : ∀ v < n, ¬ m.Cyclic v → ∀ hops, m.pairs.length ≤ hops → m.follow hops v = .ok (value v)
  sameCycle : ∀ v < n, m.Cyclic v → m.SameCycle v (value v)

theorem Renames.exists_resolves (hm : m.Renames n incoming displaced)
    (h : Exchange n incoming displaced) : ∃ value, m.Resolves n value := by
  have hyields : ∀ v ∈ List.range n, Yields (m.resolve v) fun w =>
      (¬ m.Cyclic v → m.EndsIn v w) ∧ (m.Cyclic v → m.SameCycle v w) := by
    intro v hmem
    have hv : v < n := List.mem_range.mp hmem
    by_cases hcycle : m.Cyclic v
    · have hsize : v < m.size := hm.size_eq.symm ▸ hv
      refine (follow_reaches (fun _ _ => hm.lt_size_of_hop h) _ hsize).mono fun w hw => ?_
      exact ⟨fun hacyclic => absurd hcycle hacyclic, fun _ => hcycle.sameCycle hw⟩
    · refine (hm.follow_yields h hv hcycle (Nat.le_succ _)).mono fun w hw => ?_
      exact ⟨fun _ => hw, fun hcyclic => absurd hcyclic hcycle⟩
  obtain ⟨value, hvalue, -⟩ := Yields.exists_map hyields
  replace hvalue := fun v hv => hvalue v (List.mem_range.mpr hv)
  refine ⟨value, fun v hv => (hvalue v hv).1, fun v hv hacyclic w => ?_,
    fun v hv hacyclic hops henough => ?_, fun v hv => (hvalue v hv).2.2⟩
  · have hend := (hvalue v hv).2.1 hacyclic
    exact ⟨fun hw => hw.unique hend, fun hw => hw ▸ hend⟩
  · obtain ⟨w, hw, hend⟩ := hm.follow_yields h hv hacyclic henough
    rw [hw, hend.unique ((hvalue v hv).2.1 hacyclic)]

namespace Resolves

theorem endsIn (hr : m.Resolves n value) (hm : m.Renames n incoming displaced) (hv : v < n)
    (hout : v ∉ displaced) : m.EndsIn v (value v) :=
  (hr.endsIn_iff v hv (hm.not_cyclic hout) _).mpr rfl

theorem mapsTo (hr : m.Resolves n value) (hm : m.Renames n incoming displaced)
    (h : Exchange n incoming displaced) :
    Set.MapsTo value {v | v < n ∧ v ∉ displaced} {v | v < n ∧ v ∉ incoming} := by
  rintro v ⟨hv, hout⟩
  have hend := hr.endsIn hm hv hout
  refine ⟨?_, hend.not_mem_incoming hm h hout⟩
  rcases hend.eq_or_mem_displaced hm with heq | hmem
  · exact heq.symm ▸ hv
  · exact h.displaced_lt _ hmem

theorem leftInvOn (hr : m.Resolves n value) (hr' : m'.Resolves n value')
    (hm : m.Renames n incoming displaced) (hm' : m'.Renames n displaced incoming)
    (h : Exchange n incoming displaced) :
    Set.LeftInvOn value' value {v | v < n ∧ v ∉ displaced} := by
  rintro v ⟨hv, hout⟩
  obtain ⟨hlt, houtside⟩ := hr.mapsTo hm h ⟨hv, hout⟩
  have hback : m'.EndsIn (value v) v := (hr.endsIn hm hv hout).swap hm hm' hout
  exact (hr'.endsIn hm' hlt houtside).unique hback

end Resolves

/-- Every value resolves to the end of its chain, or stays on its cycle. From the values that stayed
outside to those that did not enter this is a bijection. -/
theorem resolve_follows_chains (h : Exchange n incoming displaced) :
    ∃ (m m' : Mapping) (value value' : Nat → Nat),
      ofSegments incoming displaced n = .ok m ∧ m.Renames n incoming displaced ∧
      ofSegments displaced incoming n = .ok m' ∧ m'.Renames n displaced incoming ∧
      m.Resolves n value ∧ m'.Resolves n value' ∧
      Set.BijOn value {v | v < n ∧ v ∉ displaced} {v | v < n ∧ v ∉ incoming} ∧
      Set.InvOn value' value {v | v < n ∧ v ∉ displaced} {v | v < n ∧ v ∉ incoming} := by
  obtain ⟨m, hsegments, hm⟩ := ofSegments_yields h
  obtain ⟨m', hsegments', hm'⟩ := ofSegments_yields h.symm
  obtain ⟨value, hr⟩ := hm.exists_resolves h
  obtain ⟨value', hr'⟩ := hm'.exists_resolves h.symm
  have hinv : Set.InvOn value' value {v | v < n ∧ v ∉ displaced} {v | v < n ∧ v ∉ incoming} :=
    ⟨hr.leftInvOn hr' hm hm' h, hr'.leftInvOn hr hm' hm h.symm⟩
  have hbij := hinv.bijOn (hr.mapsTo hm h) (hr'.mapsTo hm' h.symm)
  exact ⟨m, m', value, value', hsegments, hm, hsegments', hm', hr, hr', hbij, hinv⟩

theorem resolve_follows_chains_eightValues :
    ∃ (m m' : Mapping) (value value' : Nat → Nat),
      ofSegments [3, 2, 1, 4, 5, 6] [2, 1, 0, 4, 6, 5] 8 = .ok m ∧
      ofSegments [2, 1, 0, 4, 6, 5] [3, 2, 1, 4, 5, 6] 8 = .ok m' ∧
      m.Resolves 8 value ∧ m'.Resolves 8 value' ∧ value 3 = 0 ∧ value' 0 = 3 ∧
      m.Cyclic 5 ∧ m.SameCycle 5 (value 5) ∧
      Set.InvOn value' value {v | v < 8 ∧ v ∉ [2, 1, 0, 4, 6, 5]}
        {v | v < 8 ∧ v ∉ [3, 2, 1, 4, 5, 6]} := by
  have h : Exchange 8 [3, 2, 1, 4, 5, 6] [2, 1, 0, 4, 6, 5] :=
    ⟨by decide, by decide, by decide, by decide, by decide⟩
  obtain ⟨m, m', value, value', hsegments, hm, hsegments', -, hr, hr', -, hinv⟩ :=
    resolve_follows_chains h
  have hout : m.Hop 5 6 := (hm.hop_iff 5 6).mpr ⟨by decide, 4, rfl, rfl⟩
  have hback : m.Hop 6 5 := (hm.hop_iff 6 5).mpr ⟨by decide, 5, rfl, rfl⟩
  have hcycle : m.Cyclic 5 := .tail (.single hout) hback
  refine ⟨m, m', value, value', hsegments, hsegments', hr, hr', ?_, ?_, hcycle,
    hr.sameCycle 5 (by decide) hcycle, hinv⟩
  · cases hsegments
    exact Except.ok.inj (hr.resolve_eq 3 (by decide)).symm
  · cases hsegments'
    exact Except.ok.inj (hr'.resolve_eq 0 (by decide)).symm

end PopulationSearch.Genetic.Mapping
