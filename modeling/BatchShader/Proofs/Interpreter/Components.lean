import BatchShader.Proofs.Interpreter.Reads
import BatchShader.Proofs.Safety.Operation

/-
  Components of rows, and what copies of lanes do to them.

  `Register.component? x j r` is component `j` of row `r`; rows are compared by their components
  (`atRow_eq_of_component`). Swizzles and writes to a target both copy lanes one after the other
  into lanes of one kind. What they leave in a lane at a live row is the component that was copied
  there last (`foldlM_copies`, `writeLanes_component`, `swizzle_component`).
-/

namespace BatchShader

/-- What occurs in a list occurs for the last time. -/
theorem exists_last_getElem? {α : Type} {a : α} {l : List α} (h : a ∈ l) :
    ∃ i : Nat, l[i]? = some a ∧ ∀ i', i < i' → l[i']? ≠ some a := by
  induction l with
  | nil => cases h
  | cons first l ih =>
    by_cases hl : a ∈ l
    · obtain ⟨i, hi, hlast⟩ := ih hl
      refine ⟨i + 1, hi, fun i' hi' => ?_⟩
      cases i' with
      | zero => omega
      | succ i' => exact hlast i' (by omega)
    · obtain rfl | hmem := List.mem_cons.1 h
      · refine ⟨0, rfl, fun i' hi' hget => ?_⟩
        cases i' with
        | zero => omega
        | succ i' => exact hl (List.mem_of_getElem? hget)
      · exact absurd hmem hl

/-! ## Components -/

theorem Lane.get?_atRow (l : Lane) (r : Nat) : (l.atRow r).get? 0 = l.get? r := by
  rw [get?, get?, atRow, getElem?_rowSlice_zero]

/-- A lane at a row is known from its kind and its component there. -/
theorem Lane.atRow_eq_of_get? {l l' : Lane} {r : Nat} (hkind : l.kind = l'.kind)
    (h : l.get? r = l'.get? r) : l.atRow r = l'.atRow r := by
  obtain ⟨k, column⟩ := l
  obtain ⟨k', column'⟩ := l'
  dsimp only at hkind
  subst hkind
  have hget : column[r]? = column'[r]? :=
    Option.map_injective (fun x y hxy => eq_of_heq (Scalar.mk.inj hxy).2) h
  exact congrArg (Lane.mk k) (rowSlice_congr hget)

namespace Register

/-- Component `j` of a row. -/
def component? (x : Register) (j r : Nat) : Option Scalar := x.lanes[j]?.bind (·.get? r)

variable {x y : Register} {c : LiveChain} {j r : Nat}

theorem component?_atRow (x : Register) (j r : Nat) :
    (x.atRow r).component? j 0 = x.component? j r := by
  rw [component?, component?, getElem?_lanes_atRow, Option.bind_map]
  exact congrArg _ (funext fun l => l.get?_atRow r)

theorem component?_congr (h : y.atRow r = x.atRow r) (j : Nat) :
    y.component? j r = x.component? j r := by
  rw [← component?_atRow, h, component?_atRow]

theorem component?_of_lanes_eq (h : y.lanes[j]? = x.lanes[j]?) (r : Nat) :
    y.component? j r = x.component? j r := by
  rw [component?, component?, h]

theorem Kept.component?_eq (h : Kept c x y) (hr : r ∉ c.visited) (j : Nat) :
    y.component? j r = x.component? j r := component?_congr (h.atRow_eq r hr) j

theorem WellFormed.exists_component (h : x.WellFormed) (hj : j < x.type.components)
    (hr : r < x.rows) : ∃ s, x.component? j r = some s := by
  rw [← h.length_lanes] at hj
  have hrows : x.lanes[j].column.size = x.rows := h.rows_lane _ (List.getElem_mem hj)
  have hlt : r < x.lanes[j].column.size := hrows ▸ hr
  rw [component?, List.getElem?_eq_getElem hj, Option.bind_some, Lane.get?,
    Array.getElem?_eq_getElem hlt]
  exact ⟨_, rfl⟩

/-- A row of a well-formed register of some type is known from its components. -/
theorem atRow_eq_of_component (hx : x.WellFormed) (hy : y.WellFormed) (ht : y.type = x.type)
    (h : ∀ j < x.type.components, y.component? j r = x.component? j r) :
    y.atRow r = x.atRow r := by
  have hlanes : y.lanes.map (·.atRow r) = x.lanes.map (·.atRow r) := by
    refine map_eq_map_of_getElem? (by rw [hx.length_lanes, hy.length_lanes, ht])
      fun j l l' hl hl' => Lane.atRow_eq_of_get? ?_ ?_
    · have hkind := hy.kind_lane l (List.mem_of_getElem? hl)
      rw [ht, hx.kind_lane l' (List.mem_of_getElem? hl'), Option.some.injEq] at hkind
      exact hkind.symm
    · have hj : j < x.type.components :=
        hx.length_lanes ▸ (List.getElem?_eq_some_iff.1 hl').1
      have hcomponent := h j hj
      rwa [component?, component?, hl, hl'] at hcomponent
  rw [atRow, atRow, ht, hlanes]

/-- Lanes of registers of one kind have one kind. -/
theorem WellFormed.kind_eq (hx : x.WellFormed) (hy : y.WellFormed)
    (ht : y.type.kind? = x.type.kind?) {l l' : Lane} (hl : l ∈ x.lanes) (hl' : l' ∈ y.lanes) :
    l'.kind = l.kind := by
  have hkind := hy.kind_lane l' hl'
  rw [ht, hx.kind_lane l hl, Option.some.injEq] at hkind
  exact hkind.symm

end Register

/-! ## Copies of lanes -/

namespace Sweep

variable {s : Sweep} {r : Nat}

/-- A conversion changes no other lane. -/
theorem getElem?_convertInto_ne {src : Lane} {out new : Register} {i j : Nat}
    (h : s.convertInto src out i = .ok new) (hj : i ≠ j) : new.lanes[j]? = out.lanes[j]? := by
  unfold convertInto at h
  split at h
  · obtain ⟨l, -, h⟩ := Outcome.bind_eq_ok.1 h
    rw [← Except.ok.inj h]
    exact List.getElem?_set_ne hj
  · rw [← Except.ok.inj h]

/-- A lane converted into one of its own kind is there afterwards at live rows. -/
theorem convertInto_component (hc : s.chain.Closed) (hr : r ∈ s.chain.visited) {src dst : Lane}
    {out new : Register} {i : Nat} (hdst : out.lanes[i]? = some dst)
    (hkind : dst.kind = src.kind) (h : s.convertInto src out i = .ok new) :
    new.component? i r = src.get? r := by
  obtain ⟨l, rfl, hl⟩ := convertInto_copies hc hr hdst hkind h
  have hlane : (out.setLane i l).lanes[i]? = some l :=
    List.getElem?_set_self (List.getElem?_eq_some_iff.1 hdst).1
  rw [Register.component?, hlane, Option.bind_some, ← Lane.get?_atRow, hl, Lane.get?_atRow]

/-- Lanes of the length of the batch can be converted into each other. -/
theorem exists_convertInto (hc : s.chain.Closed) {src : Lane} {out : Register}
    (hsrc : src.column.size = s.chain.rows) (hout : out.Spans s.chain.rows) (i : Nat) :
    ∃ new, s.convertInto src out i = .ok new := by
  unfold convertInto
  split
  · next dst hdst =>
    have hsize := hout.size_of_mem (List.mem_of_getElem? hdst)
    obtain ⟨column, hcolumn, -⟩ := exists_wrote hc
      (fun r _ => return src.kind.convert dst.kind (← rowOf src.column r)) hsize fun r hr _ => by
        obtain ⟨x, hx⟩ := LiveChain.exists_getElem?_of_mem_visited hsrc hr
        rw [rowOf_eq_ok.2 hx]
        exact ⟨_, rfl⟩
    have hconvert : s.convertLane src dst = .ok ⟨dst.kind, column⟩ :=
      Outcome.bind_eq_ok.2 ⟨column, hcolumn, rfl⟩
    rw [hconvert]
    exact ⟨_, rfl⟩
  · exact ⟨out, rfl⟩

/-- Lanes copied one after the other, each from its source into its target: a lane holds at a live
row what was copied into it last, and is as it was if nothing was. -/
theorem foldlM_copies {α : Type} (hc : s.chain.Closed) (hr : r ∈ s.chain.visited)
    {f : Register → α → Outcome Register} (source : α → Option Lane) (target : α → Nat)
    {l : List α} {out new : Register}
    (hstep : ∀ a out new, f out a = .ok new →
      ∃ src, source a = some src ∧ s.convertInto src out (target a) = .ok new)
    (hkinds : ∀ a ∈ l, ∀ src, source a = some src →
      ∃ dst, out.lanes[target a]? = some dst ∧ dst.kind = src.kind)
    (h : l.foldlM f out = .ok new) :
    (∀ j, (∀ a ∈ l, target a ≠ j) → new.lanes[j]? = out.lanes[j]?) ∧
      ∀ (i : Nat) (a : α), l[i]? = some a →
        (∀ (i' : Nat) (a' : α), i < i' → l[i']? = some a' → target a' ≠ target a) →
        new.component? (target a) r = (source a).bind (·.get? r) := by
  induction l generalizing out with
  | nil =>
    rw [← Except.ok.inj h]
    exact ⟨fun _ _ => rfl, fun i a ha => nomatch ha⟩
  | cons first l ih =>
    rw [List.foldlM_cons] at h
    obtain ⟨mid, hmid, h⟩ := Outcome.bind_eq_ok.1 h
    obtain ⟨src, hsrc, hconvert⟩ := hstep first out mid hmid
    obtain ⟨dst, hdst, hkind⟩ := hkinds first List.mem_cons_self src hsrc
    -- the lanes have kept their kinds
    have hkept := kept_convertInto hc hconvert
    have hshape : mid.lanes.map Lane.shape = out.lanes.map Lane.shape :=
      congrArg (·.2.2) hkept.shape_eq
    obtain ⟨hothers, hlast⟩ := ih (fun a ha src hsrc => by
      obtain ⟨dst, hdst, hkind⟩ := hkinds a (List.mem_cons_of_mem first ha) src hsrc
      have hlane := congrArg (·[target a]?) hshape
      rw [List.getElem?_map, List.getElem?_map, hdst, Option.map_some,
        Option.map_eq_some_iff] at hlane
      obtain ⟨dst', hdst', hsame⟩ := hlane
      exact ⟨dst', hdst', (congrArg Prod.fst hsame).trans hkind⟩) h
    constructor
    · intro j hj
      rw [List.forall_mem_cons] at hj
      rw [hothers j hj.2, getElem?_convertInto_ne hconvert hj.1]
    · intro i a ha hafter
      cases i with
      | zero =>
        cases ha
        -- nothing that comes later goes into this lane
        have hlane : new.lanes[target first]? = mid.lanes[target first]? := by
          refine hothers _ fun a' ha' => ?_
          obtain ⟨i', hi'⟩ := List.mem_iff_getElem?.1 ha'
          exact hafter (i' + 1) a' (Nat.succ_pos i') hi'
        rw [Register.component?_of_lanes_eq hlane, convertInto_component hc hr hdst hkind hconvert,
          hsrc]
        rfl
      | succ i =>
        exact hlast i a ha fun i' a' hi' ha' => hafter (i' + 1) a' (Nat.succ_lt_succ hi') ha'

/-- Components that the base has can be selected, in any order and as often as one likes. -/
theorem exists_swizzle (hc : s.chain.Closed) {base : Register} (hbase : base.Spans s.chain.rows)
    {indices : List UInt8} {t : ShaderType} (hlength : indices.length = t.components)
    (hkind : t.kind? = base.type.kind?) (hindices : ∀ k ∈ indices, k.toNat < base.type.components) :
    ∃ new, s.swizzle base indices t = .ok new := by
  refine (Outcome.exists_foldlM (P := Register.Kept s.chain (s.blank t)) (fun p hp out hout => ?_)
    (.refl _ _)).imp fun new h => swizzle_eq_ok.2 ⟨by simp [hlength, hkind], h.1⟩
  have hlt : p.1.toNat < base.lanes.length := by
    rw [hbase.1.length_lanes]
    exact hindices p.1 (List.fst_mem_of_mem_zipIdx hp)
  have hsize := hbase.size_of_mem (List.getElem_mem hlt)
  obtain ⟨new, hnew⟩ := exists_convertInto hc hsize ((spans_blank t).kept hout) p.2
  refine ⟨new, ?_, hout.trans (kept_convertInto hc hnew)⟩
  dsimp only
  rw [List.getElem?_eq_getElem hlt]
  exact hnew

/-- Component `i` of a swizzle is the component of the base that index `i` names. -/
theorem swizzle_component (hc : s.chain.Closed) (hr : r ∈ s.chain.visited) {base new : Register}
    (hbase : base.WellFormed) {indices : List UInt8} {t : ShaderType}
    (h : s.swizzle base indices t = .ok new) {i : Nat} {k : UInt8} (hk : indices[i]? = some k) :
    new.component? i r = base.component? k.toNat r := by
  obtain ⟨hfit, h⟩ := swizzle_eq_ok.1 h
  rw [not_or, not_not, not_not] at hfit
  obtain ⟨hlength, hkind⟩ := hfit
  have hblank : (s.blank t).WellFormed := Register.zeroed_wellFormed t _
  have hpos : indices.zipIdx[i]? = some (k, i) := by
    rw [List.getElem?_zipIdx, hk, Nat.zero_add]
    rfl
  refine (foldlM_copies hc hr (fun p => base.lanes[p.1.toNat]?) Prod.snd
    (fun p out new h => ?_) (fun p hp src hsrc => ?_) h).2 i (k, i) hpos fun i' p hi' hp => ?_
  · dsimp only at h
    split at h
    · next src hsrc => exact ⟨src, hsrc, h⟩
    · cases h
  · have hlt : p.2 < (s.blank t).lanes.length := by
      rw [hblank.length_lanes]
      have hp := List.snd_lt_of_mem_zipIdx hp
      change p.2 < t.components
      omega
    refine ⟨_, List.getElem?_eq_getElem hlt, ?_⟩
    exact hbase.kind_eq hblank hkind (List.mem_of_getElem? hsrc) (List.getElem_mem hlt)
  · rw [List.getElem?_zipIdx, Option.map_eq_some_iff] at hp
    obtain ⟨_, -, rfl⟩ := hp
    dsimp only
    omega

end Sweep

namespace Interpreter

variable {it : Interpreter} {b : Batch} {c : LiveChain}

/-- The register of an expression, under a chain of rows of the batch. -/
theorem spans_of_eval (hit : it.Catalogued) (hb : b.Sound) (hc : c.Canonical)
    (hrows : c.rows = b.rows) {e : Expr} {R : Register} (h : it.eval b c e = .ok R) :
    R.type = e.type ∧ R.Spans c.rows := by
  obtain ⟨ht, hRrows, hwf⟩ := Register.shaped_iff.1 (shaped_of_eval hit hb hc hrows h)
  exact ⟨ht, hwf, hRrows.trans hrows.symm⟩

/-! ## Writes to a target -/

/-- Without a mask, value and target have one type, and all lanes are written. -/
theorem targetLanes_none_eq_ok {target : String} {dst value : Register} {lanes : List Nat} :
    targetLanes target none dst value = .ok lanes ↔
      dst.type = value.type ∧ List.range value.type.components = lanes := by
  refine Outcome.check_eq_ok.trans ?_
  rw [not_not, Except.ok.injEq]

/-- A mask lists as many components as the value has, and the target, of the value's kind, has
them. -/
theorem targetLanes_some_eq_ok {target : String} {indices : List UInt8} {dst value : Register}
    {lanes : List Nat} :
    targetLanes target (some indices) dst value = .ok lanes ↔
      indices.length = value.type.components ∧ dst.type.kind? = value.type.kind? ∧
        (∀ k ∈ indices, k.toNat < dst.type.components) ∧ indices.map UInt8.toNat = lanes := by
  refine Outcome.check_eq_ok.trans ?_
  rw [not_or, not_not, not_not, and_assoc]
  refine and_congr_right fun _ => and_congr_right fun _ => ?_
  have hfind : (∀ k ∈ indices, k.toNat < dst.type.components) ↔
      (indices.find? fun k => dst.type.components ≤ k.toNat) = none := by
    simp [List.find?_eq_none]
  rw [hfind]
  cases indices.find? fun k => dst.type.components ≤ k.toNat with
  | none => simp
  | some k => simp [Outcome.mismatch, Outcome.fail]

/-- The lanes that an assignment writes fit its value and are lanes of its target. -/
theorem targetLanes_fit {target : String} {mask : Option (List UInt8)} {dst value : Register}
    {lanes : List Nat} (h : targetLanes target mask dst value = .ok lanes) :
    lanes.length = value.type.components ∧ dst.type.kind? = value.type.kind? ∧
      ∀ j ∈ lanes, j < dst.type.components := by
  cases mask with
  | none =>
    obtain ⟨ht, rfl⟩ := targetLanes_none_eq_ok.1 h
    rw [ht]
    exact ⟨List.length_range, rfl, fun j hj => List.mem_range.1 hj⟩
  | some indices =>
    obtain ⟨hlength, hkind, hbound, rfl⟩ := targetLanes_some_eq_ok.1 h
    rw [List.length_map, List.forall_mem_map]
    exact ⟨hlength, hkind, hbound⟩

/-- Values of one type go into the same lanes of targets of one type. -/
theorem targetLanes_congr {target : String} {mask : Option (List UInt8)}
    {dst dst' value value' : Register} (hdst : dst'.type = dst.type)
    (hvalue : value'.type = value.type) :
    targetLanes target mask dst' value' = targetLanes target mask dst value := by
  unfold targetLanes
  rw [hdst, hvalue]

/-- Converts a component of a value into a lane of the target: one step of `writeLanes`. -/
def writeLane (it : Interpreter) (chain : LiveChain) (target : String) (value dst : Register)
    (p : Nat × Nat) : Outcome Register :=
  match value.lanes[p.2]?, dst.lanes[p.1]? with
  | some src, some _ => (it.sweep chain).convertInto src dst p.1
  | _, _ => Outcome.mismatch (.noLane p.1 target)

section Writes

variable {target : String} {value dst R : Register} {lanes : List Nat} {p : Nat × Nat}

theorem writeLanes_eq (it : Interpreter) (c : LiveChain) (target : String) (value : Register)
    (lanes : List Nat) (dst : Register) :
    it.writeLanes c target value lanes dst =
      lanes.zipIdx.foldlM (it.writeLane c target value) dst := rfl

theorem writeLane_eq_ok :
    it.writeLane c target value dst p = .ok R ↔
      ∃ src old, value.lanes[p.2]? = some src ∧ dst.lanes[p.1]? = some old ∧
        (it.sweep c).convertInto src dst p.1 = .ok R := by
  unfold writeLane
  cases value.lanes[p.2]? <;> cases dst.lanes[p.1]? <;> simp [Outcome.mismatch, Outcome.fail]

/-- A component that the value has can be written to a lane that the target has. -/
theorem exists_writeLane (it : Interpreter) (target : String) (hc : c.Closed)
    (hvalue : value.Spans c.rows) (hdst : dst.Spans c.rows) (hlane : p.1 < dst.type.components)
    (hcomponent : p.2 < value.type.components) :
    ∃ R, it.writeLane c target value dst p = .ok R ∧ Register.Kept c dst R := by
  rw [← hdst.1.length_lanes] at hlane
  rw [← hvalue.1.length_lanes] at hcomponent
  have hsize := hvalue.size_of_mem (List.getElem_mem hcomponent)
  obtain ⟨R, hR⟩ := Sweep.exists_convertInto (s := it.sweep c) hc hsize hdst p.1
  refine ⟨R, ?_, Sweep.kept_convertInto (s := it.sweep c) hc hR⟩
  exact writeLane_eq_ok.2 ⟨_, _, List.getElem?_eq_getElem hcomponent,
    List.getElem?_eq_getElem hlane, hR⟩

/-- A value can be written to lanes that its target has. -/
theorem exists_writeLanes (it : Interpreter) (target : String) (hc : c.Closed)
    (hvalue : value.Spans c.rows) (hdst : dst.Spans c.rows)
    (hlength : lanes.length = value.type.components)
    (hlanes : ∀ j ∈ lanes, j < dst.type.components) :
    ∃ R, it.writeLanes c target value lanes dst = .ok R := by
  have hstep : ∀ p ∈ lanes.zipIdx, ∀ out, Register.Kept c dst out →
      ∃ R, it.writeLane c target value out p = .ok R ∧ Register.Kept c dst R := by
    intro p hp out hout
    have hlane : p.1 < out.type.components := by
      rw [hout.type_eq]
      exact hlanes p.1 (List.fst_mem_of_mem_zipIdx hp)
    have hcomponent : p.2 < value.type.components := by
      have := List.snd_lt_of_mem_zipIdx hp
      omega
    obtain ⟨R, hR, hkept⟩ := exists_writeLane it target hc hvalue
      (hdst.kept hout) hlane hcomponent
    exact ⟨R, hR, hout.trans hkept⟩
  obtain ⟨R, hR, -⟩ := Outcome.exists_foldlM hstep (.refl c dst)
  exact ⟨R, hR⟩

/-- What is in a target after a write: at a live row the component that was written last, and in
other lanes what was there. -/
theorem writeLanes_component (hc : c.Closed) {r : Nat} (hr : r ∈ c.visited)
    (hvalue : value.WellFormed) (hdst : dst.WellFormed)
    (hkind : dst.type.kind? = value.type.kind?) (hlanes : ∀ j ∈ lanes, j < dst.type.components)
    (h : it.writeLanes c target value lanes dst = .ok R) :
    (∀ j, j ∉ lanes → R.component? j r = dst.component? j r) ∧
      ∀ i j, lanes[i]? = some j → (∀ i', i < i' → lanes[i']? ≠ some j) →
        R.component? j r = value.component? i r := by
  obtain ⟨hothers, hlast⟩ := Sweep.foldlM_copies (s := it.sweep c) hc hr
    (fun p => value.lanes[p.2]?) Prod.fst
    (fun p out new h => by
      obtain ⟨src, old, hsrc, -, h⟩ := writeLane_eq_ok.1 h
      exact ⟨src, hsrc, h⟩)
    (fun p hp src hsrc => by
      have hlt : p.1 < dst.lanes.length := by
        rw [hdst.length_lanes]
        exact hlanes p.1 (List.fst_mem_of_mem_zipIdx hp)
      exact ⟨_, List.getElem?_eq_getElem hlt,
        hvalue.kind_eq hdst hkind (List.mem_of_getElem? hsrc) (List.getElem_mem hlt)⟩) h
  constructor
  · intro j hj
    refine Register.component?_of_lanes_eq (hothers j fun p hp hpj => ?_) r
    exact hj (hpj ▸ List.fst_mem_of_mem_zipIdx hp)
  · intro i j hi hafter
    have hpos : lanes.zipIdx[i]? = some (j, i) := by
      rw [List.getElem?_zipIdx, hi, Nat.zero_add]
      rfl
    refine hlast i (j, i) hpos fun i' p hi' hp hsame => hafter i' hi' ?_
    rw [List.getElem?_zipIdx, Option.map_eq_some_iff] at hp
    obtain ⟨j', hj', rfl⟩ := hp
    exact hj'.trans (congrArg some hsame)

end Writes

end Interpreter

end BatchShader
