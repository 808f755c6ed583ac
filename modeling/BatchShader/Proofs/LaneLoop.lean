import BatchShader.Proofs.Interpreter.Components

/-
  Loops that write lanes, each lane at most once.

  Products of matrices and constructors start from a zeroed register and write its lanes one after
  the other, in an order of their own. `LanesWritten` says what such a loop leaves, component by
  component, and `exists_lanesWritten` that it goes through: it is enough to know one step of it,
  from any register that has the lane. For a loop that starts from a blank register,
  `LanesWritten.component` and `LanesWritten.blank_component` give the components of the result at
  live rows; at the others it is zero (`Sweep.LiveOnly`).
-/

namespace BatchShader

namespace Register

variable {x y : Register} {c : LiveChain} {k : Kind} {i j r : Nat}

theorem component?_of_lane {column : Array k.Elem} (h : x.lane k i = .ok column) (r : Nat) :
    x.component? i r = column[r]?.map (⟨k, ·⟩) := by
  rw [component?, lane_eq_ok.1 h]
  rfl

theorem WellFormed.kind_component (hx : x.WellFormed) (hk : x.type.kind? = some k) {e : Scalar}
    (he : x.component? j r = some e) : e.kind = k := by
  obtain ⟨l, hl, hget⟩ := Option.bind_eq_some_iff.1 he
  have hkind := hx.kind_lane l (List.mem_of_getElem? hl)
  rw [hk, Option.some.injEq] at hkind
  obtain ⟨y, -, rfl⟩ := Option.map_eq_some_iff.1 hget
  exact hkind.symm

/-- Row `r` of a register consists of the components `e`, all of kind `k`. -/
def HoldsRow (x : Register) (k : Kind) (r : Nat) (e : Nat → k.Elem) : Prop :=
  ∀ j < x.type.components, x.component? j r = some ⟨k, e j⟩

theorem Spans.exists_holdsRow {rows : Nat} (h : x.Spans rows) (hk : x.type.kind? = some k)
    (hr : r < rows) : ∃ e, x.HoldsRow k r e := by
  have hsome : ∀ j, ∃ e, j < x.type.components → x.component? j r = some ⟨k, e⟩ := by
    intro j
    by_cases hj : j < x.type.components
    · obtain ⟨⟨k', e⟩, he⟩ := h.1.exists_component hj (h.2.symm ▸ hr)
      obtain rfl : k' = k := h.1.kind_component hk he
      exact ⟨e, fun _ => he⟩
    · exact ⟨k.zero, fun hj' => absurd hj' hj⟩
  choose e he using hsome
  exact ⟨e, he⟩

theorem readRow_of_component {e : k.Elem} (h : x.component? i r = some ⟨k, e⟩) :
    x.readRow k i r = .ok e := by
  obtain ⟨l, hl, hget⟩ := Option.bind_eq_some_iff.1 h
  obtain ⟨k', column⟩ := l
  obtain ⟨e', he', heq⟩ := Option.map_eq_some_iff.1 hget
  cases heq
  rw [readRow_of_lane (lane_eq_ok.2 hl)]
  exact Sweep.rowOf_eq_ok.2 he'

/-- A lane may be replaced by what a sweep made of it. -/
theorem kept_setLane_of_wrote {step : RowStep k.Elem} {old new : Array k.Elem}
    (hold : x.lane k i = .ok old) (h : step.Wrote c.visited old new) :
    Kept c x (x.setLane i ⟨k, new⟩) :=
  kept_setColumn (lane_eq_ok.1 hold) ⟨h.size_eq, fun r hr => rowSlice_congr (h.dead r hr)⟩

/-- Components of a blank register. -/
theorem component?_zeroed {t : ShaderType} (hk : t.kind? = some k) {rows : Nat}
    (hj : j < t.components) (hr : r < rows) :
    (zeroed t rows).component? j r = some ⟨k, k.zero⟩ := by
  simp [component?, zeroed, hk, hj, Lane.zeroed, Lane.get?, hr]

/-- A register of some type for `rows` rows is known from its components. -/
theorem ext_of_component {rows : Nat} (hx : x.Spans rows) (hy : y.Spans rows)
    (ht : y.type = x.type)
    (h : ∀ j < x.type.components, ∀ r < rows, y.component? j r = x.component? j r) : y = x :=
  ext_of_atRow hx.1 (hy.1.shape_eq hx.1 ht (hy.2.trans hx.2.symm)) fun r hr =>
    atRow_eq_of_component hx.1 hy.1 ht fun j hj => h j hj r (hx.2 ▸ hr)

/-! ## Places in a matrix -/

/-- Lane `c * n + i` of a matrix holds row `i` of column `c`. -/
theorem index_lt {n : Nat} (hi : i < n) (hj : j < n) : j * n + i < n * n :=
  calc j * n + i < j * n + n := by omega
    _ = (j + 1) * n := (Nat.succ_mul j n).symm
    _ ≤ n * n := Nat.mul_le_mul_right n hj

theorem index_inj {n i i' c c' : Nat} (hi : i < n) (hi' : i' < n)
    (h : c * n + i = c' * n + i') : c = c' ∧ i = i' := by
  have hdiv := congrArg (· / n) h
  have hmod := congrArg (· % n) h
  have hpos : 0 < n := Nat.zero_lt_of_lt hi
  simp only [Nat.add_comm _ i, Nat.add_comm _ i', Nat.add_mul_div_right _ _ hpos,
    Nat.add_mul_mod_self_right, Nat.div_eq_of_lt, Nat.mod_eq_of_lt, hi, hi'] at hdiv hmod
  omega

theorem exists_index {n j : Nat} (hj : j < n * n) : ∃ i < n, ∃ c < n, c * n + i = j := by
  have hpos : 0 < n := Nat.pos_of_ne_zero fun h => by simp [h] at hj
  exact ⟨j % n, Nat.mod_lt j hpos, j / n, Nat.div_lt_of_lt_mul hj, Nat.div_add_mod' j n⟩

/-! ## What a loop leaves -/

/-- From `x` to `y` the lane `target a` of each element `a` of a list was changed by the step of
`a`, once at each live row, and nothing else. -/
structure LanesWritten {α : Type} (c : LiveChain) (k : Kind) (target : α → Nat)
    (step : α → RowStep k.Elem) (l : List α) (x y : Register) : Prop where
  kept : Kept c x y
  written : ∀ a ∈ l, ∀ r ∈ c.visited, ∃ old new, x.component? (target a) r = some ⟨k, old⟩ ∧
    step a r old = .ok new ∧ y.component? (target a) r = some ⟨k, new⟩
  others : ∀ j, j ∉ l.map target → y.lanes[j]? = x.lanes[j]?

/-- A loop over elements with different targets goes through, if each step does what it should to
any register that has its lane. -/
theorem exists_lanesWritten {α : Type} {l : List α} {f : Register → α → Outcome Register}
    (target : α → Nat) (step : α → RowStep k.Elem) (hx : x.Spans c.rows)
    (hk : x.type.kind? = some k) (hdistinct : (l.map target).Nodup)
    (hbound : ∀ a ∈ l, target a < x.type.components)
    (hstep : ∀ a ∈ l, ∀ (out : Register) (old : Array k.Elem), out.lane k (target a) = .ok old →
      old.size = c.rows → ∃ new, f out a = .ok (out.setLane (target a) ⟨k, new⟩) ∧
        (step a).Wrote c.visited old new) :
    ∃ y, l.foldlM f x = .ok y ∧ LanesWritten c k target step l x y := by
  induction l generalizing x with
  | nil => exact ⟨x, rfl, .refl c x, fun a ha => (nomatch ha), fun _ _ => rfl⟩
  | cons a l ih =>
    rw [List.map_cons, List.nodup_cons] at hdistinct
    rw [List.forall_mem_cons] at hbound
    obtain ⟨old, hold, hsize⟩ := hx.1.exists_lane hk hbound.1
    obtain ⟨new, hnew, hwrote⟩ := hstep a List.mem_cons_self x old hold (hsize.trans hx.2)
    have hkept := kept_setLane_of_wrote hold hwrote
    obtain ⟨y, hy, hrest⟩ := ih (hx.kept hkept) hk hdistinct.2 hbound.2 fun b hb =>
      hstep b (List.mem_cons_of_mem a hb)
    refine ⟨y, by rw [List.foldlM_cons, hnew, Outcome.ok_bind, hy], hkept.trans hrest.kept,
      List.forall_mem_cons.2 ⟨fun r hr => ?_, fun b hb r hr => ?_⟩, fun j hj => ?_⟩
    · -- later steps have other targets
      have hlane : y.component? (target a) r = new[r]?.map (⟨k, ·⟩) := by
        rw [component?_of_lanes_eq (hrest.others _ hdistinct.1),
          component?_of_lane (lane_setLane_self hold)]
      obtain ⟨before, after, hbefore, hafter, hget⟩ := hwrote.live r hr
      refine ⟨before, after, ?_, hafter, by rw [hlane, hget]; rfl⟩
      rw [component?_of_lane hold, hbefore]
      rfl
    · obtain ⟨before, after, hbefore, hafter, hget⟩ := hrest.written b hb r hr
      refine ⟨before, after, ?_, hafter, hget⟩
      have hne : target a ≠ target b := fun h => hdistinct.1 (h ▸ List.mem_map_of_mem hb)
      rw [← hbefore, component?, component?, setLane, List.getElem?_set_ne hne]
    · rw [List.map_cons, List.mem_cons, not_or] at hj
      rw [hrest.others j hj.2, setLane, List.getElem?_set_ne (Ne.symm hj.1)]

namespace LanesWritten

variable {α : Type} {target : α → Nat} {step : α → RowStep k.Elem} {l : List α}
  {t : ShaderType} {rows : Nat}

/-- What a step gives from zero is the component of a result that was blank before. -/
theorem component (h : LanesWritten c k target step l (zeroed t rows) y)
    (hk : t.kind? = some k) (hrows : c.rows = rows) {a : α} (ha : a ∈ l)
    (hbound : target a < t.components) (hr : r ∈ c.visited) {e : k.Elem}
    (he : step a r k.zero = .ok e) : y.component? (target a) r = some ⟨k, e⟩ := by
  obtain ⟨old, new, hold, hnew, hget⟩ := h.written a ha r hr
  have hlt : r < rows := hrows ▸ LiveChain.lt_rows_of_mem_visited hr
  rw [component?_zeroed hk hbound hlt, Option.some.injEq] at hold
  cases hold
  rw [he, Except.ok.injEq] at hnew
  rw [hget, hnew]

/-- A component that no step writes is zero. -/
theorem blank_component (h : LanesWritten c k target step l (zeroed t rows) y)
    (hk : t.kind? = some k) (hj : j < t.components) (hr : r < rows) (hblank : j ∉ l.map target) :
    y.component? j r = some ⟨k, k.zero⟩ := by
  rw [← component?_zeroed hk hj hr]
  exact component?_of_lanes_eq (h.others j hblank) r

end LanesWritten

end Register

/-! ## Results -/

namespace Sweep

/-- A register of type `t` for the batch, with zero at every row that is not live. -/
structure LiveOnly (s : Sweep) (t : ShaderType) (k : Kind) (x : Register) : Prop where
  type_eq : x.type = t
  spans : x.Spans s.chain.rows
  zero : ∀ j < t.components, ∀ row < s.chain.rows, row ∉ s.chain.visited →
    x.component? j row = some ⟨k, k.zero⟩

variable {s : Sweep} {t : ShaderType} {k : Kind} {x : Register}

/-- Operations start from a blank register and write live rows. -/
theorem liveOnly_of_kept (hk : t.kind? = some k) (h : Register.Kept s.chain (s.blank t) x) :
    s.LiveOnly t k x where
  type_eq := h.type_eq
  spans := (spans_blank t).kept h
  zero j hj row hrow hdead := by
    rw [h.component?_eq hdead]
    exact Register.component?_zeroed hk hj hrow

end Sweep

end BatchShader
