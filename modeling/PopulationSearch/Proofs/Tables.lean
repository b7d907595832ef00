import PopulationSearch.Proofs.Rounding
import PopulationSearch.Proofs.Verdicts

/-! Tables of distances. The least row with something wrong is named, and in it the least column. -/

namespace PopulationSearch

namespace DistanceTable

structure IsDistance (i j : Nat) (x : Float) : Prop where
  isFinite : x.isFinite = true
  nonnegative : ¬ x < 0
  of_eq : i = j → x = 0 ∨ x = -0

def rowVerdict (n i : Nat) (row : List Float) : Verdict Float :=
  .andThen (.require (row.length = n) (.notSquare i row.length n)) <|
  .requireAll {j : Nat | j < row.length}
    (fun j => ∀ x, row[j]? = some x → IsDistance i j x)
    (fun j e => ∃ x, row[j]? = some x ∧ e = .invalidDistance i j x)
    (by
      rintro j _ _ ⟨x, hx, rfl⟩ ⟨x', hx', rfl⟩
      cases hx.symm.trans hx'
      rfl)

def verdict (rows : List (List Float)) : Verdict Float :=
  .andThen (.require (rows ≠ []) .emptyProblem) <|
  .requireAll {i : Nat | i < rows.length}
    (fun i => ∀ row, rows[i]? = some row → (rowVerdict rows.length i row).accepts)
    (fun i e => ∃ row, rows[i]? = some row ∧ (rowVerdict rows.length i row).refuses e)
    (by
      rintro i e e' ⟨row, hrow, he⟩ ⟨row', hrow', he'⟩
      cases hrow.symm.trans hrow'
      exact (rowVerdict rows.length i row).unique e e' he he')

theorem isBad_eq_false_iff {i j : Nat} {x : Float} : isBad i j x = false ↔ IsDistance i j x := by
  have hzero : (x != 0) = false ↔ x = 0 ∨ x = -0 := by
    rw [← Binary64.beq_zero_iff, bne, Bool.not_eq_false']
  have hself : (i == j && x != 0) = false ↔ (i = j → x = 0 ∨ x = -0) := by
    rw [← hzero, Bool.and_eq_false_imp, beq_iff_eq]
  rw [isBad, Bool.or_eq_false_iff, Bool.or_eq_false_iff, Bool.not_eq_false',
    decide_eq_false_iff_not, hself]
  exact ⟨fun h => ⟨h.1.1, h.1.2, h.2⟩, fun h => ⟨⟨h.isFinite, h.nonnegative⟩, h.of_eq⟩⟩

theorem checkRow_heeds (n i : Nat) (row : List Float) :
    (rowVerdict n i row).Heeds some (checkRow n i row) := by
  unfold checkRow
  split
  case isTrue hlength => exact .failed ⟨hlength, rfl⟩ rfl
  case isFalse hlength =>
  refine .passed (not_not.mp hlength) ?_
  split
  case h_1 x j hfound =>
    obtain ⟨hx, hbad, hleast⟩ := find?_zipIdx_eq_some hfound
    rintro _ ⟨⟩
    refine ⟨j, ⟨⟨(List.getElem?_eq_some_iff.mp hx).1, fun hgood => ?_⟩, ?_⟩, x, hx, rfl⟩
    · exact Bool.false_ne_true ((isBad_eq_false_iff.mpr (hgood x hx)).symm.trans hbad)
    · rintro k ⟨-, hfails⟩
      push Not at hfails
      obtain ⟨y, hy, hnot⟩ := hfails
      exact hleast k y hy (Bool.eq_true_of_not_eq_false (mt isBad_eq_false_iff.mp hnot))
  case h_2 hnone =>
    exact fun j _ x hx => isBad_eq_false_iff.mp (find?_zipIdx_eq_none hnone hx)

theorem ofRows_heeds (rows : List (List Float)) : (verdict rows).Heeds some (ofRows rows) := by
  unfold ofRows
  split
  case isTrue hempty => exact .failed ⟨not_not.mpr (List.isEmpty_iff.mp hempty), rfl⟩ rfl
  case isFalse hsome =>
  refine .passed (fun h => hsome (List.isEmpty_iff.mpr h)) ?_
  rw [forM_eq_mapM_bind]
  refine .bind_faulty (.bind_faulty ?_ fun _ => .pure trivial) fun _ => .pure trivial
  refine .mapM (pairwise_zipIdx rows) (fun i hi => ?_) fun entry hentry => ?_
  · exact ⟨(rows[i], i), List.mk_mem_zipIdx_iff_getElem?.mpr (List.getElem?_eq_getElem hi), rfl⟩
  · have hrow := List.mem_zipIdx_iff_getElem?.mp hentry
    have hsame {row} (hrow' : rows[entry.2]? = some row) : entry.1 = row :=
      Option.some.inj (hrow.symm.trans hrow')
    refine (checkRow_heeds rows.length entry.2 entry.1).mono (fun _ haccepts _ row hrow' => ?_) ?_
    · rw [← hsame hrow']
      exact haccepts
    · intro e he
      have hrefuses := he e rfl
      refine ⟨⟨(List.getElem?_eq_some_iff.mp hrow).1, fun haccepts => ?_⟩, ?_⟩
      · exact (rowVerdict ..).exclusive e hrefuses (haccepts entry.1 hrow)
      · rintro _ ⟨⟩
        exact ⟨entry.1, hrow, hrefuses⟩

theorem eq_of_ofRows_eq_ok {rows : List (List Float)} {t : DistanceTable Float}
    (h : ofRows rows = .ok t) : t = ⟨⟨rows.length, rows.flatten.toArray⟩⟩ := by
  unfold ofRows at h
  split at h
  · cases h
  · obtain ⟨_, -, h⟩ := bind_eq_ok.mp h
    exact (Except.ok.inj h).symm

theorem distance_eq_ok {rows : List (List Float)} (hrows : ∀ row ∈ rows, row.length = rows.length)
    {i j : Nat} (hi : i < rows.length) (hj : j < rows.length) :
    ∃ row x, rows[i]? = some row ∧ row[j]? = some x ∧
      (toDistances ⟨⟨rows.length, rows.flatten.toArray⟩⟩).distance i j = .ok x := by
  have hrow := List.getElem?_eq_getElem hi
  have hx := List.getElem?_eq_getElem (hj.trans_eq (hrows _ (List.getElem_mem hi)).symm)
  refine ⟨_, _, hrow, hx, demand_eq_ok.mpr ?_⟩
  rw [Grid.flat, List.getElem?_toArray, Grid.getElem?_flatten hrows hj, hrow]
  exact hx

/-- Rows become a table if the verdict on them is to accept, and else are refused with its error. -/
theorem ofRows_decides (rows : List (List Float)) :
    ((∃ t, ofRows rows = .ok t) ↔ (verdict rows).accepts) ∧
    (∀ e, ofRows rows = .error e ↔ (verdict rows).refuses e) ∧
    Ensures (ofRows rows) fun t => t.toDistances.cities = rows.length ∧
      ∀ i < rows.length, ∀ j < rows.length, ∃ row x,
        rows[i]? = some row ∧ row[j]? = some x ∧ t.toDistances.distance i j = .ok x := by
  obtain ⟨hok, herror⟩ := (ofRows_heeds rows).decisive fun e _ => ⟨e, rfl⟩
  refine ⟨hok, fun e => ?_, fun t ht => ?_⟩
  · simpa using herror e
  · obtain ⟨-, haccepts⟩ := hok.mp ⟨t, ht⟩
    have hrows : ∀ row ∈ rows, row.length = rows.length := by
      intro row hmem
      obtain ⟨i, hrow⟩ := List.mem_iff_getElem?.mp hmem
      exact (haccepts i (List.getElem?_eq_some_iff.mp hrow).1 row hrow).1
    cases eq_of_ofRows_eq_ok ht
    exact ⟨rfl, fun i hi j hj => distance_eq_ok hrows hi hj⟩

theorem ofRows_decides_pairs :
    (∃ t, ofRows [[0, 1], [2, (-0 : Float)]] = .ok t ∧ t.toDistances.distance 1 0 = .ok 2) ∧
    (verdict [[0, 1], [2, -0]]).accepts ∧
    (verdict [[0, 1, 0 / 0], [1, 0]]).refuses (.notSquare 0 3 2) ∧
    (verdict [[0, -1], [1]]).refuses (.invalidDistance 0 1 (-1)) := by
  obtain ⟨hok, -, hlayout⟩ := ofRows_decides [[0, 1], [2, -0]]
  obtain ⟨t, ht⟩ : ∃ t, ofRows [[0, 1], [2, (-0 : Float)]] = .ok t :=
    exists_eq_ok (by decide +kernel)
  obtain ⟨row, x, hrow, hx, hdistance⟩ := (hlayout t ht).2 1 (by decide) 0 (by decide)
  refine ⟨⟨t, ht, ?_⟩, hok.mp ⟨t, ht⟩, ?_, ?_⟩
  · cases hrow
    cases hx
    exact hdistance
  · exact ((ofRows_decides _).2.1 _).mp rfl
  · exact ((ofRows_decides _).2.1 _).mp rfl

end DistanceTable
end PopulationSearch
