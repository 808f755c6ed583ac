import BatchShader.Proofs.Coverage
import BatchShader.Proofs.Sequence
import BatchShader.Register

/-
  One row of a batch on its own.

  `rowSlice`, `Lane.atRow` and `Register.atRow` cut a row out of a column, a lane, a register: what
  is left is a column, a lane, a register of one row. `apply_slice` and `apply_slice_dead` say what
  a sweep does to a row: at a live row it is the sweep over that row alone, at any other row nothing.

  `Register.Kept c r s`: from `r` to `s` no type, row number, lane kind or lane length has changed,
  and no element at a row that `c` does not visit.
-/

namespace BatchShader

/-! ## Columns -/

/-- The column of one row that holds row `r` of a column. -/
def rowSlice {α : Type} (column : Array α) (r : Nat) : Array α := column[r]?.toArray

section Columns

variable {α β : Type}

@[simp] theorem getElem?_rowSlice_zero (column : Array α) (r : Nat) :
    (rowSlice column r)[0]? = column[r]? := by
  unfold rowSlice
  cases column[r]? <;> rfl

theorem getElem?_rowSlice_succ (column : Array α) (r i : Nat) :
    (rowSlice column r)[i + 1]? = none := by
  unfold rowSlice
  cases column[r]? <;> simp

theorem size_rowSlice {column : Array α} {r : Nat} (h : r < column.size) :
    (rowSlice column r).size = 1 := by
  rw [rowSlice, Array.getElem?_eq_getElem h]
  rfl

@[simp] theorem rowOf_rowSlice (column : Array α) (r : Nat) :
    rowOf (rowSlice column r) 0 = rowOf column r := by
  rw [rowOf, rowOf, getElem?_rowSlice_zero]

theorem rowSlice_congr {x y : Array α} {r r' : Nat} (h : x[r]? = y[r']?) :
    rowSlice x r = rowSlice y r' := congrArg Option.toArray h

theorem rowSlice_replicate {n r : Nat} (h : r < n) (x : α) :
    rowSlice (Array.replicate n x) r = Array.replicate 1 x := by
  rw [rowSlice, Array.getElem?_replicate, if_pos h]
  rfl

end Columns

/-! ## Sweeps -/

/-- The chain of a batch of one live row. -/
def LiveChain.single : LiveChain := build 1 [0]

theorem LiveChain.visited_single : LiveChain.single.visited = [0] :=
  visited_build ⟨by decide, List.pairwise_singleton _ _, by simp⟩

theorem LiveChain.canonical_single : LiveChain.single.Canonical :=
  canonical_build ⟨by decide, List.pairwise_singleton _ _, by simp⟩

@[simp] theorem LiveChain.rows_single : LiveChain.single.rows = 1 := rows_build ..

namespace Sweep

variable {β : Type}

/-- The sweep over one live row. -/
def one (paths : VectorPaths) : Sweep := ⟨.single, paths⟩

theorem closed_one (paths : VectorPaths) : (one paths).chain.Closed :=
  LiveChain.canonical_single.closed

/-- At a live row, a sweep does what the sweep over the row alone does. -/
theorem apply_slice {s : Sweep} (hc : s.chain.Closed) {step step₁ : RowStep β}
    {old new : Array β} (h : s.apply step old = .ok new) {r : Nat} (hr : r ∈ s.chain.visited)
    (hstep : ∀ x y, step r x = .ok y → step₁ 0 x = .ok y) (paths : VectorPaths) :
    (one paths).apply step₁ (rowSlice old r) = .ok (rowSlice new r) := by
  obtain ⟨hsize, hlive, -⟩ := (apply_eq_ok_iff hc).1 h
  obtain ⟨x, y, hx, hy, hnew⟩ := hlive r hr
  rw [apply_eq_ok_iff (closed_one paths)]
  have hlt : r < old.size := (Array.getElem?_eq_some_iff.1 hx).1
  refine ⟨by rw [size_rowSlice hlt, size_rowSlice (by omega)], ?_, ?_⟩
  · intro i hi
    rw [one, LiveChain.visited_single, List.mem_singleton] at hi
    subst hi
    exact ⟨x, y, by rw [getElem?_rowSlice_zero, hx], hstep x y hy,
      by rw [getElem?_rowSlice_zero, hnew]⟩
  · intro i hi
    rw [one, LiveChain.visited_single, List.mem_singleton] at hi
    obtain ⟨i, rfl⟩ := Nat.exists_eq_succ_of_ne_zero hi
    rw [getElem?_rowSlice_succ, getElem?_rowSlice_succ]

theorem apply_slice_dead {s : Sweep} (hc : s.chain.Closed) {step : RowStep β}
    {old new : Array β} (h : s.apply step old = .ok new) {r : Nat} (hr : r ∉ s.chain.visited) :
    rowSlice new r = rowSlice old r :=
  rowSlice_congr (((apply_eq_ok_iff hc).1 h).dead r hr)

theorem size_of_apply {s : Sweep} (hc : s.chain.Closed) {step : RowStep β}
    {old new : Array β} (h : s.apply step old = .ok new) : new.size = old.size :=
  ((apply_eq_ok_iff hc).1 h).size_eq

end Sweep

/-! ## Lanes and registers -/

namespace Lane

/-- The lane of one row that holds row `r` of a lane. -/
def atRow (l : Lane) (r : Nat) : Lane := ⟨l.kind, rowSlice l.column r⟩

/-- Kind and length. -/
def shape (l : Lane) : Kind × Nat := (l.kind, l.rows)

theorem atRow_zeroed {n r : Nat} (h : r < n) (k : Kind) :
    (zeroed k n).atRow r = zeroed k 1 := by
  simp only [atRow, zeroed, rowSlice_replicate h]

theorem atRow_splat {n r : Nat} (h : r < n) (s : Scalar) : (splat s n).atRow r = splat s 1 := by
  simp only [atRow, splat, rowSlice_replicate h]

/-- Reading the row of a lane reads the lane at the row. -/
theorem as?_atRow (l : Lane) (k : Kind) (r : Nat) :
    ((l.atRow r).as? k).bind (·[0]?) = (l.as? k).bind (·[r]?) := by
  obtain ⟨k', c⟩ := l
  unfold as? atRow
  split
  · next h =>
    cases h
    exact getElem?_rowSlice_zero c r
  · rfl

end Lane

namespace Register

/-- The register of one row that holds row `r` of a register. -/
def atRow (x : Register) (r : Nat) : Register := ⟨x.type, 1, x.lanes.map (·.atRow r)⟩

@[simp] theorem type_atRow (x : Register) (r : Nat) : (x.atRow r).type = x.type := rfl

@[simp] theorem rows_atRow (x : Register) (r : Nat) : (x.atRow r).rows = 1 := rfl

@[simp] theorem getElem?_lanes_atRow (x : Register) (r i : Nat) :
    (x.atRow r).lanes[i]? = x.lanes[i]?.map (·.atRow r) := List.getElem?_map ..

theorem atRow_zeroed {n r : Nat} (h : r < n) (t : ShaderType) :
    (zeroed t n).atRow r = zeroed t 1 := by
  unfold zeroed atRow
  cases t.kind? with
  | none => rfl
  | some k => simp only [List.map_replicate, Lane.atRow_zeroed h]

theorem atRow_splat {n r : Nat} (h : r < n) (v : Value) : (splat v n).atRow r = splat v 1 := by
  simp only [splat, atRow, List.map_map]
  congr 1
  exact List.map_congr_left fun s _ => Lane.atRow_splat h s

theorem rowValue?_zeroed (t : ShaderType) : (zeroed t 1).rowValue? 0 = Value.zero? t := by
  cases t <;> rfl

/-- The value of a row is the value of the register cut out at the row. -/
theorem rowValue?_atRow (x : Register) {r : Nat} (h : r < x.rows) :
    (x.atRow r).rowValue? 0 = x.rowValue? r := by
  simp only [rowValue?, h, Nat.one_pos, if_true, atRow, List.mapM_map, Function.comp_def,
    Lane.as?_atRow]

theorem lane_atRow {x : Register} {k : Kind} {i : Nat} {column : Array k.Elem}
    (h : x.lane k i = .ok column) (r : Nat) : (x.atRow r).lane k i = .ok (rowSlice column r) := by
  rw [lane_eq_ok] at h ⊢
  rw [getElem?_lanes_atRow, h]
  rfl

theorem setLane_atRow (x : Register) (i : Nat) (l : Lane) (r : Nat) :
    (x.setLane i l).atRow r = (x.atRow r).setLane i (l.atRow r) := by
  simp only [setLane, atRow, List.map_set]

/-- Changing a lane, seen at one row. -/
theorem modifyLane_atRow {x y : Register} {k : Kind} {i r : Nat}
    {f g : Array k.Elem → Outcome (Array k.Elem)} (h : x.modifyLane k i f = .ok y)
    (hfg : ∀ old new, f old = .ok new → g (rowSlice old r) = .ok (rowSlice new r)) :
    (x.atRow r).modifyLane k i g = .ok (y.atRow r) := by
  obtain ⟨old, hold, h⟩ := Outcome.bind_eq_ok.1 h
  obtain ⟨new, hnew, h⟩ := Outcome.bind_eq_ok.1 h
  rw [← Except.ok.inj h, setLane_atRow, modifyLane, lane_atRow hold, Outcome.ok_bind,
    hfg old new hnew]
  rfl

/-! ## What stays as it is -/

/-- Type, row number, and the kinds and lengths of the lanes. -/
def shape (x : Register) : ShaderType × Nat × List (Kind × Nat) :=
  (x.type, x.rows, x.lanes.map Lane.shape)

theorem wellFormed_iff {x : Register} :
    x.WellFormed ↔ x.lanes.length = x.type.components ∧
      ∀ p ∈ x.lanes.map Lane.shape, x.type.kind? = some p.1 ∧ p.2 = x.rows := by
  rw [List.forall_mem_map]
  exact ⟨fun h => ⟨h.length_lanes, fun l hl => ⟨h.kind_lane l hl, h.rows_lane l hl⟩⟩,
    fun h => ⟨h.1, fun l hl => (h.2 l hl).1, fun l hl => (h.2 l hl).2⟩⟩

/-- Being well-formed is a matter of the shape. -/
theorem WellFormed.of_shape {x y : Register} (hx : x.WellFormed) (h : y.shape = x.shape) :
    y.WellFormed := by
  simp only [shape, Prod.mk.injEq] at h
  obtain ⟨ht, hr, hl⟩ := h
  have hlen := congrArg List.length hl
  rw [List.length_map, List.length_map] at hlen
  rw [wellFormed_iff] at hx ⊢
  rw [hlen, ht, hr, hl]
  exact hx

/-- Nothing but elements at rows that the chain visits differs. -/
structure Kept (c : LiveChain) (x y : Register) : Prop where
  shape_eq : y.shape = x.shape
  atRow_eq : ∀ r, r ∉ c.visited → y.atRow r = x.atRow r

namespace Kept

variable {c : LiveChain} {x y z : Register}

theorem refl (c : LiveChain) (x : Register) : Kept c x x := ⟨rfl, fun _ _ => rfl⟩

theorem trans (h : Kept c x y) (h' : Kept c y z) : Kept c x z :=
  ⟨h'.shape_eq.trans h.shape_eq, fun r hr => (h'.atRow_eq r hr).trans (h.atRow_eq r hr)⟩

theorem type_eq (h : Kept c x y) : y.type = x.type := congrArg (·.1) h.shape_eq

theorem rows_eq (h : Kept c x y) : y.rows = x.rows := congrArg (·.2.1) h.shape_eq

theorem mono {d : LiveChain} (h : Kept d x y) (hd : ∀ r ∈ d.visited, r ∈ c.visited) :
    Kept c x y :=
  ⟨h.shape_eq, fun r hr => h.atRow_eq r fun hr' => hr (hd r hr')⟩

theorem wellFormed (h : Kept c x y) (hx : x.WellFormed) : y.WellFormed := hx.of_shape h.shape_eq

end Kept

/-- Replacing a lane by one of its shape that differs at live rows only. -/
theorem kept_setLane {c : LiveChain} {x : Register} {i : Nat} {old new : Lane}
    (hold : x.lanes[i]? = some old) (hshape : new.shape = old.shape)
    (hrow : ∀ r, r ∉ c.visited → new.atRow r = old.atRow r) : Kept c x (x.setLane i new) := by
  have hset : ∀ {τ : Type} (f : Lane → τ), f new = f old →
      (x.lanes.set i new).map f = x.lanes.map f := by
    intro τ f hf
    obtain ⟨hi, rfl⟩ := List.getElem?_eq_some_iff.1 hold
    rw [List.map_set, hf]
    exact List.ext_getElem (by simp) fun j _ _ => by
      rw [List.getElem_set]
      split
      · next h =>
        subst h
        rw [List.getElem_map]
      · rfl
  refine ⟨?_, fun r hr => ?_⟩
  · simp only [shape, setLane, hset Lane.shape hshape]
  · simp only [atRow, setLane, hset (·.atRow r) (hrow r hr)]

theorem kept_setColumn {c : LiveChain} {x : Register} {i : Nat} {old : Lane}
    {column : Array old.kind.Elem} (hold : x.lanes[i]? = some old)
    (h : column.size = old.column.size ∧
      ∀ r, r ∉ c.visited → rowSlice column r = rowSlice old.column r) :
    Kept c x (x.setLane i ⟨old.kind, column⟩) := by
  refine kept_setLane hold ?_ fun r hr => ?_
  · simp only [Lane.shape, Lane.rows, h.1]
  · simp only [Lane.atRow, h.2 r hr]

theorem kept_modifyLane {c : LiveChain} {x y : Register} {k : Kind} {i : Nat}
    {f : Array k.Elem → Outcome (Array k.Elem)} (h : x.modifyLane k i f = .ok y)
    (hf : ∀ old new, f old = .ok new → new.size = old.size ∧
      ∀ r, r ∉ c.visited → rowSlice new r = rowSlice old r) : Kept c x y := by
  obtain ⟨old, hold, h⟩ := Outcome.bind_eq_ok.1 h
  obtain ⟨new, hnew, h⟩ := Outcome.bind_eq_ok.1 h
  rw [← Except.ok.inj h]
  exact kept_setColumn (lane_eq_ok.1 hold) (hf old new hnew)

/-- A sweep keeps the length of a column and its elements at rows that are not live. -/
theorem kept_apply {s : Sweep} (hc : s.chain.Closed) {β : Type} {step : RowStep β}
    {old new : Array β} (h : s.apply step old = .ok new) :
    new.size = old.size ∧ ∀ r, r ∉ s.chain.visited → rowSlice new r = rowSlice old r :=
  ⟨Sweep.size_of_apply hc h, fun _ hr => Sweep.apply_slice_dead hc h hr⟩

end Register

end BatchShader
