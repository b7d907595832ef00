import Mathlib.Logic.Function.Iterate
import PopulationSearch.Grid
import PopulationSearch.Proofs.Outcome

/-! Positions inside a square are all there, and no two of them share a cell. -/

namespace PopulationSearch.Grid

variable {α : Type} {g : Grid α} {n : Nat}

structure Square (g : Grid α) (n : Nat) : Prop where
  size_eq : g.size = n
  cells_size : g.cells.size = n * n

theorem flat_lt {i j : Nat} (hi : i < n) (hj : j < n) : i * n + j < n * n := by
  have h : (i + 1) * n ≤ n * n := Nat.mul_le_mul_right n hi
  rw [Nat.add_one_mul] at h
  omega

theorem flat_injective {i j i' j' : Nat} (hj : j < n) (hj' : j' < n)
    (h : i * n + j = i' * n + j') : i = i' ∧ j = j' := by
  have hmod := congrArg (· % n) h
  have hdiv := congrArg (· / n) h
  have hn : 0 < n := Nat.zero_lt_of_lt hj
  simp only [Nat.mul_comm _ n, Nat.mul_add_mod, Nat.mul_add_div hn, Nat.mod_eq_of_lt hj,
    Nat.mod_eq_of_lt hj', Nat.div_eq_of_lt hj, Nat.div_eq_of_lt hj', Nat.add_zero] at hmod hdiv
  exact ⟨hdiv, hmod⟩

theorem square_uniform (n : Nat) (x : α) : (uniform n x).Square n :=
  ⟨rfl, Array.size_replicate⟩

theorem get_map (f : α → α) (g : Grid α) (i j : Nat) : (g.map f).get i j = f <$> g.get i j := by
  have hcell : (g.map f).cells[(g.map f).flat i j]? = g.cells[g.flat i j]?.map f :=
    Array.getElem?_map
  rw [get, hcell, demand_map]
  rfl

theorem modify_map {h k k' : α → α} (hk : ∀ x, k' (h x) = h (k x)) (i j : Nat) :
    (g.map h).modify i j k' = Grid.map h <$> g.modify i j k := by
  have hcells (p : Nat) : (g.cells.map h).modify p k' = (g.cells.modify p k).map h := by
    apply Array.ext_getElem?
    intro q
    simp only [Array.getElem?_modify, Array.getElem?_map]
    split
    · cases g.cells[q]? <;> simp [hk]
    · rfl
  have hflat : (g.map h).flat i j = g.flat i j := rfl
  have hsize : (g.map h).cells.size = g.cells.size := Array.size_map
  rw [modify, modify, hflat, hsize]
  split
  · exact congrArg (fun cells => Except.ok (Grid.mk g.size cells)) (hcells _)
  · rfl

theorem uniform_map (h : α → α) (n : Nat) (x : α) : (uniform n x).map h = uniform n (h x) := by
  simp [uniform, Grid.map]

theorem get_uniform (x : α) {i j : Nat} (hi : i < n) (hj : j < n) :
    (uniform n x).get i j = .ok x := by
  have hcell : (uniform n x).cells[(uniform n x).flat i j]? = some x :=
    Array.getElem?_replicate.trans (if_pos (flat_lt hi hj))
  rw [get, hcell]
  rfl

theorem length_positions (n : Nat) : (positions n).length = n * n := by
  simp [positions, List.length_flatMap]

theorem mem_positions {n i j : Nat} : (i, j) ∈ positions n ↔ i < n ∧ j < n := by
  simp [positions]

theorem mem_offDiagonal {n i j : Nat} : (i, j) ∈ offDiagonal n ↔ i < n ∧ j < n ∧ i ≠ j := by
  simp [offDiagonal, mem_positions, and_assoc]

theorem getElem?_flatten {rows : List (List α)} (hrows : ∀ row ∈ rows, row.length = n) {j : Nat}
    (hj : j < n) (i : Nat) : rows.flatten[i * n + j]? = rows[i]?.bind (·[j]?) := by
  induction rows generalizing i with
  | nil => rfl
  | cons row rows ih =>
    obtain ⟨hrow, hrows⟩ := List.forall_mem_cons.mp hrows
    rw [List.flatten_cons]
    cases i with
    | zero =>
      rw [Nat.zero_mul, Nat.zero_add, List.getElem?_append_left (hj.trans_eq hrow.symm)]
      rfl
    | succ i =>
      have hplace : (i + 1) * n + j = row.length + (i * n + j) := by
        rw [Nat.add_one_mul, hrow]
        omega
      rw [hplace, List.getElem?_append_right (Nat.le_add_right ..), Nat.add_sub_cancel_left,
        ih hrows, List.getElem?_cons_succ]

theorem getElem?_positions {i j : Nat} (hi : i < n) (hj : j < n) :
    (positions n)[i * n + j]? = some (i, j) := by
  rw [positions, List.flatMap_def, getElem?_flatten (by simp) hj]
  simp [hi, hj]

theorem build_meets {ε : Type} {entry : Nat → Nat → Except ε α} {R : ε → Prop}
    (h : ∀ i < n, ∀ j < n, Meets (entry i j) (fun _ => True) R) :
    Meets (build n entry) (fun g => g.Square n) R := by
  have hcells : Meets ((positions n).mapM fun p => entry p.1 p.2)
      (List.Forall₂ (fun _ _ => True) (positions n)) R := by
    refine Meets.mapM _ fun p hp => ?_
    obtain ⟨hi, hj⟩ := mem_positions.mp hp
    exact h p.1 hi p.2 hj
  refine hcells.bind fun cells hlength => .pure ⟨rfl, ?_⟩
  rw [List.size_toArray, ← length_positions n]
  exact hlength.length_eq.symm

theorem build_eq_ok {ε : Type} {entry : Nat → Nat → Except ε α} (h : build n entry = .ok g)
    {i j : Nat} (hi : i < n) (hj : j < n) : ∃ x, entry i j = .ok x ∧ g.get i j = .ok x := by
  obtain ⟨cells, hcells, hg⟩ := bind_eq_ok.mp h
  cases hg
  obtain ⟨x, hx, hentry⟩ :=
    exists_getElem?_of_forall₂ (forall₂_of_mapM_eq_ok hcells) (getElem?_positions hi hj)
  refine ⟨x, hentry, ?_⟩
  simp [get, flat, hx, demand]

theorem map_iterate_count_singleton (f : α → α) (p q : Nat × Nat) (x : Except Fault α) :
    f^[[p].count q] <$> x = if p = q then f <$> x else x := by
  rw [List.count_singleton]
  rcases eq_or_ne p q with heq | hne
  · rw [if_pos heq, if_pos (beq_iff_eq.mpr heq), Function.iterate_one]
  · rw [if_neg hne, if_neg (by simpa using hne), Function.iterate_zero, id_map]

namespace Square

theorem flat_lt_size (h : g.Square n) {i j : Nat} (hi : i < n) (hj : j < n) :
    g.flat i j < g.cells.size := by
  rw [flat, h.size_eq, h.cells_size]
  exact flat_lt hi hj

theorem get_yields (h : g.Square n) {i j : Nat} (hi : i < n) (hj : j < n) :
    Yields (g.get i j) fun _ => True :=
  .demand (Array.getElem?_eq_getElem (h.flat_lt_size hi hj)) trivial

theorem exists_get_eq (h : g.Square n) {i j : Nat} {x : α} (hx : g.get i j = .ok x) :
    ∃ a < n, ∃ b < n, g.get a b = .ok x := by
  rw [get, demand_eq_ok] at hx
  have hlt := (Array.getElem?_eq_some_iff.mp hx).1
  have hn : g.flat i j < n * n := h.cells_size ▸ hlt
  have hpos : 0 < n := Nat.pos_of_mul_pos_left (Nat.zero_lt_of_lt hn)
  refine ⟨g.flat i j / n, Nat.div_lt_of_lt_mul hn, g.flat i j % n, Nat.mod_lt _ hpos, ?_⟩
  rw [get, demand_eq_ok, ← hx]
  congr 1
  rw [flat, h.size_eq, Nat.div_add_mod']

theorem map (h : g.Square n) (f : α → α) : (g.map f).Square n :=
  ⟨h.size_eq, Array.size_map.trans h.cells_size⟩

theorem ext {g' : Grid α} (h : g.Square n) (h' : g'.Square n)
    (hget : ∀ i < n, ∀ j < n, g.get i j = g'.get i j) : g = g' := by
  obtain ⟨size, cells⟩ := g
  obtain ⟨size', cells'⟩ := g'
  obtain ⟨rfl, hcells⟩ := h
  obtain ⟨hsize, hcells'⟩ := h'
  cases hsize
  congr 1
  refine Array.ext (hcells.trans hcells'.symm) fun k hk hk' => ?_
  have hsq : k < size * size := hk.trans_eq hcells
  have hi : k / size < size := Nat.div_lt_of_lt_mul hsq
  have hj : k % size < size := Nat.mod_lt k (Nat.pos_of_mul_pos_left (Nat.zero_lt_of_lt hsq))
  have hentry := hget (k / size) hi (k % size) hj
  simp only [get, flat, Nat.div_add_mod'] at hentry
  rw [Array.getElem?_eq_getElem hk, Array.getElem?_eq_getElem hk'] at hentry
  exact Except.ok.inj hentry

theorem modify_yields (h : g.Square n) {i j : Nat} (hi : i < n) (hj : j < n) (f : α → α) :
    Yields (g.modify i j f) fun g' => g'.Square n ∧
      ∀ a < n, ∀ b < n, g'.get a b = if (i, j) = (a, b) then f <$> g.get a b else g.get a b := by
  refine ⟨_, if_pos (h.flat_lt_size hi hj), ⟨h.size_eq, ?_⟩, fun a ha b hb => ?_⟩
  · rw [Array.size_modify, h.cells_size]
  · have hflat : i * n + j = a * n + b ↔ (i, j) = (a, b) := by
      rw [Prod.mk.injEq]
      exact ⟨flat_injective hj hb, fun ⟨hia, hjb⟩ => by rw [hia, hjb]⟩
    simp only [get, flat, h.size_eq, Array.getElem?_modify, hflat]
    split
    · exact demand_map f _
    · rfl

end Square
end PopulationSearch.Grid
