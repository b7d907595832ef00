import Mathlib.Logic.Function.Basic
import PopulationSearch.AntSystem.Search
import PopulationSearch.ColonySystem.Search
import PopulationSearch.Proofs.Outcome

/-! The two colonies interleave their ants differently, but one ant's acts are the same list. -/

namespace PopulationSearch

section
variable {β : Type} {ant : β → Nat} {ants length : Nat} {act : Nat → Nat → β}
  {schedule acts : List β}

def turns (ant : β → Nat) (acts : List β) (k : Nat) : Nat := acts.countP fun a => ant a == k

theorem turns_append (acts : List β) (a : β) :
    turns ant (acts ++ [a]) =
      Function.update (turns ant acts) (ant a) (turns ant acts (ant a) + 1) := by
  funext k
  rw [turns, List.countP_append, List.countP_singleton]
  rcases eq_or_ne k (ant a) with rfl | hne
  · rw [Function.update_self, beq_self_eq_true, if_pos rfl, turns]
  · rw [Function.update_of_ne hne, if_neg (by simpa using hne.symm), Nat.add_zero, turns]

/-- Every ant performs the acts `act k 0`, `act k 1`, … in this order, and there are no others. -/
structure Timetable (ant : β → Nat) (ants length : Nat) (act : Nat → Nat → β)
    (schedule : List β) : Prop where
  ant_lt : ∀ a ∈ schedule, ant a < ants
  own : ∀ k < ants, schedule.filter (fun a => ant a == k) = (List.range length).map (act k)

namespace Timetable

theorem filter_eq (h : Timetable ant ants length act schedule) (hacts : acts <+: schedule)
    {k : Nat} (hk : k < ants) :
    acts.filter (fun a => ant a == k) = (List.range (turns ant acts k)).map (act k) ∧
      turns ant acts k ≤ length := by
  have hpre := hacts.filter (fun a => ant a == k)
  rw [h.own k hk] at hpre
  have hle := hpre.length_le
  rw [List.length_map, List.length_range, ← List.countP_eq_length_filter] at hle
  refine ⟨?_, hle⟩
  rw [List.prefix_iff_eq_take, ← List.map_take, List.take_range, ← List.countP_eq_length_filter]
    at hpre
  rwa [Nat.min_eq_left hle] at hpre

theorem next (h : Timetable ant ants length act schedule) {a : β}
    (hacts : acts ++ [a] <+: schedule) :
    ant a < ants ∧ turns ant acts (ant a) < length ∧ a = act (ant a) (turns ant acts (ant a)) := by
  have hk := h.ant_lt a (hacts.mem (List.mem_append_right _ (List.mem_singleton_self a)))
  obtain ⟨heq, hle⟩ := h.filter_eq hacts hk
  rw [turns_append, Function.update_self] at heq hle
  refine ⟨hk, hle, ?_⟩
  rw [List.range_succ, List.map_append, List.filter_append,
    List.filter_singleton, beq_self_eq_true] at heq
  exact List.singleton_inj.mp (List.append_inj_right' heq rfl)

theorem mem_iff (h : Timetable ant ants length act schedule) (hacts : acts <+: schedule) {a : β}
    (hk : ant a < ants) : a ∈ acts ↔ ∃ q < turns ant acts (ant a), act (ant a) q = a := by
  have heq := (h.filter_eq hacts hk).1
  have hmem : a ∈ acts ↔ a ∈ acts.filter fun b => ant b == ant a := by simp
  rw [hmem, heq]
  simp

theorem turns_schedule (h : Timetable ant ants length act schedule) {k : Nat} (hk : k < ants) :
    turns ant schedule k = length := by
  rw [turns, List.countP_eq_length_filter, h.own k hk, List.length_map, List.length_range]

end Timetable

theorem filter_flatMap_range {body : Nat → List β} (hbody : ∀ i, ∀ a ∈ body i, ant a = i)
    {m k : Nat} (hk : k < m) :
    ((List.range m).flatMap body).filter (fun a => ant a == k) = body k := by
  have hother (i : Nat) (hi : i ≠ k) : (body i).filter (fun a => ant a == k) = [] := by
    refine List.filter_eq_nil_iff.mpr fun a ha => ?_
    rw [hbody i a ha, beq_iff_eq]
    exact hi
  have hself : (body k).filter (fun a => ant a == k) = body k := by
    refine List.filter_eq_self.mpr fun a ha => ?_
    rw [hbody k a ha, beq_self_eq_true]
  have hnone (r : Nat) (hr : r ≤ k) :
      ((List.range r).flatMap body).filter (fun a => ant a == k) = [] := by
    rw [List.filter_flatMap, List.flatMap_eq_nil_iff]
    intro i hi
    exact hother i (Nat.ne_of_lt ((List.mem_range.mp hi).trans_le hr))
  induction m with
  | zero => exact absurd hk (Nat.not_lt_zero k)
  | succ m ih =>
    rw [List.range_succ, List.flatMap_append, List.flatMap_singleton, List.filter_append]
    rcases Nat.lt_succ_iff_lt_or_eq.mp hk with hlt | rfl
    · rw [ih hlt, hother m (Nat.ne_of_gt hlt), List.append_nil]
    · rw [hnone k (le_refl k), hself, List.nil_append]

theorem filter_map_range {act : Nat → β} (hact : ∀ i, ant (act i) = i) {m k : Nat} (hk : k < m) :
    ((List.range m).map act).filter (fun a => ant a == k) = [act k] := by
  rw [List.map_eq_flatMap]
  refine filter_flatMap_range (fun i a ha => ?_) hk
  rw [List.mem_singleton.mp ha, hact]

end

namespace ColonySystem

def Act.ant : Act → Nat
  | place k | move k | mark k | close k => k

def actOf (n k turn : Nat) : Act :=
  if turn = 0 then .place k
  else if turn % 2 = 0 then .mark k
  else if turn = 2 * n - 1 then .close k
  else .move k

theorem eq_place_iff {n k turn : Nat} : actOf n k turn = .place k ↔ turn = 0 := by
  grind [actOf]

theorem eq_mark_iff {n k turn : Nat} : actOf n k turn = .mark k ↔ 0 < turn ∧ turn % 2 = 0 := by
  grind [actOf]

theorem eq_close_iff {n k turn : Nat} (hn : 0 < n) :
    actOf n k turn = .close k ↔ turn = 2 * n - 1 := by
  grind [actOf]

theorem eq_move_iff {n k turn : Nat} :
    actOf n k turn = .move k ↔ turn % 2 = 1 ∧ turn ≠ 2 * n - 1 := by
  grind [actOf]

theorem range_map_actOf {n k r : Nat} (hr : r + 1 ≤ n) :
    (List.range (2 * r + 1)).map (actOf n k) =
      [.place k] ++ (List.replicate r [.move k, .mark k]).flatten := by
  induction r with
  | zero => rfl
  | succ r ih =>
    have hmove : actOf n k (2 * r + 1) = .move k := by
      rw [actOf, if_neg (by omega), if_neg (by omega), if_neg (by omega)]
    have hmark : actOf n k (2 * r + 1 + 1) = .mark k := by
      rw [actOf, if_neg (by omega), if_pos (by omega)]
    rw [show 2 * (r + 1) + 1 = 2 * r + 1 + 1 + 1 by omega, List.range_succ, List.range_succ,
      List.map_append, List.map_append, ih (by omega), List.replicate_succ', List.flatten_append]
    simp only [List.map_cons, List.map_nil, hmove, hmark, List.flatten_cons, List.flatten_nil,
      List.append_nil, List.append_assoc, List.cons_append, List.nil_append]

theorem timetable {n : Nat} (hn : 0 < n) (m : Nat) :
    Timetable Act.ant m (2 * n + 1) (actOf n) (schedule n m) where
  ant_lt := by
    have hall (act : Nat → Act) (hact : ∀ i, (act i).ant = i) :
        ∀ a ∈ (List.range m).map act, a.ant < m := by
      intro a ha
      obtain ⟨i, hi, rfl⟩ := List.mem_map.mp ha
      rw [hact]
      exact List.mem_range.mp hi
    intro a ha
    simp only [schedule, List.mem_append, List.mem_flatten, List.mem_replicate] at ha
    rcases ha with ((ha | ⟨round, ⟨-, rfl⟩, ha⟩) | ha) | ha
    · exact hall .place (fun _ => rfl) a ha
    · rcases List.mem_append.mp ha with ha | ha
      · exact hall .move (fun _ => rfl) a ha
      · exact hall .mark (fun _ => rfl) a ha
    · exact hall .close (fun _ => rfl) a ha
    · exact hall .mark (fun _ => rfl) a ha
  own := by
    intro k hk
    obtain ⟨r, rfl⟩ : ∃ r, n = r + 1 := ⟨n - 1, by omega⟩
    have hclose : actOf (r + 1) k (2 * r + 1) = .close k := by
      rw [actOf, if_neg (by omega), if_neg (by omega), if_pos (by omega)]
    have hmark : actOf (r + 1) k (2 * r + 1 + 1) = .mark k := by
      rw [actOf, if_neg (by omega), if_pos (by omega)]
    rw [show 2 * (r + 1) + 1 = 2 * r + 1 + 1 + 1 by omega, List.range_succ, List.range_succ,
      List.map_append, List.map_append, range_map_actOf (le_refl _)]
    have hown (act : Nat → Act) (hact : ∀ i, (act i).ant = i) :
        ((List.range m).map act).filter (fun a => a.ant == k) = [act k] :=
      filter_map_range hact hk
    simp only [schedule, List.filter_append, List.filter_flatten, List.map_replicate,
      hown .place fun _ => rfl, hown .move fun _ => rfl, hown .mark fun _ => rfl,
      hown .close fun _ => rfl, List.map_cons, List.map_nil, hclose, hmark, List.append_assoc,
      List.cons_append, List.nil_append, Nat.add_sub_cancel]

end ColonySystem

namespace AntSystem

def Act.ant : Act → Nat
  | place k | move k | close k => k

def actOf (n k turn : Nat) : Act :=
  if turn = 0 then .place k else if turn = n then .close k else .move k

theorem eq_place_iff {n k turn : Nat} : actOf n k turn = .place k ↔ turn = 0 := by
  grind [actOf]

theorem eq_close_iff {n k turn : Nat} (hn : 0 < n) : actOf n k turn = .close k ↔ turn = n := by
  grind [actOf]

theorem eq_move_iff {n k turn : Nat} : actOf n k turn = .move k ↔ 0 < turn ∧ turn ≠ n := by
  grind [actOf]

theorem range_map_actOf {n k : Nat} (hn : 0 < n) :
    (List.range (n + 1)).map (actOf n k) =
      [.place k] ++ (List.replicate (n - 1) (.move k) ++ [.close k]) := by
  have hmoves : ∀ r < n, (List.range (r + 1)).map (actOf n k) =
      [.place k] ++ List.replicate r (.move k) := by
    intro r hr
    induction r with
    | zero => rfl
    | succ r ih =>
      have hmove : actOf n k (r + 1) = .move k := by
        rw [actOf, if_neg (by omega), if_neg (by omega)]
      rw [List.range_succ, List.map_append, ih (by omega), List.replicate_succ',
        List.map_singleton, hmove, List.append_assoc]
  have hclose : actOf n k n = .close k := by rw [actOf, if_neg (by omega), if_pos rfl]
  have h := hmoves (n - 1) (by omega)
  rw [Nat.sub_add_cancel hn] at h
  rw [List.range_succ, List.map_append, h, List.map_singleton, hclose, List.append_assoc]

theorem timetable {n : Nat} (hn : 0 < n) (m : Nat) :
    Timetable Act.ant m (n + 1) (actOf n) (schedule n m) where
  ant_lt := by
    intro a ha
    simp only [schedule, List.mem_append, List.mem_map, List.mem_flatMap, List.mem_range,
      List.mem_replicate, List.mem_singleton] at ha
    rcases ha with ⟨k, hk, rfl⟩ | ⟨k, hk, ⟨-, rfl⟩ | rfl⟩ <;> exact hk
  own := by
    intro k hk
    have hplace : ((List.range m).map Act.place).filter (fun a => a.ant == k) = [.place k] :=
      filter_map_range (fun _ => rfl) hk
    rw [range_map_actOf hn, schedule, List.filter_append, hplace]
    congr 1
    refine filter_flatMap_range (fun i a ha => ?_) hk
    rcases List.mem_append.mp ha with ha | ha
    · rw [(List.mem_replicate.mp ha).2, Act.ant]
    · rw [List.mem_singleton.mp ha, Act.ant]

end AntSystem
end PopulationSearch
