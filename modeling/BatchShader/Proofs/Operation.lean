import BatchShader.Operation
import BatchShader.Proofs.Row

/-
  Operators, swizzles and constructors, row by row.

  Each operation comes with two facts. It changes nothing of its blank result but elements at live
  rows (`kept_…`), so the result has the annotated type and the batch's row number. And what it
  computes at a live row is what it computes from that row of its operands alone (`…_atRow`).
-/

namespace BatchShader.Sweep

variable {s : Sweep} {r : Nat} {α β γ δ ε : Type}

/-! ## Sweeps with operands -/

section Operands

variable (hc : s.chain.Closed) (hr : r ∈ s.chain.visited) (paths : VectorPaths)

include hc hr

theorem map_slice {f f₁ : Nat → Outcome β} {out new : Array β} (h : s.map f out = .ok new)
    (hf : ∀ y, f r = .ok y → f₁ 0 = .ok y) :
    (one paths).map f₁ (rowSlice out r) = .ok (rowSlice new r) :=
  apply_slice hc h hr (fun _ y hy => hf y hy) paths

theorem map1_slice {a : Array α} {out new : Array β} {op : α → β}
    (h : s.map1 a out op = .ok new) :
    (one paths).map1 (rowSlice a r) (rowSlice out r) op = .ok (rowSlice new r) :=
  map_slice hc hr paths h fun y hy => by rwa [rowOf_rowSlice]

theorem map2_slice {a : Array α} {b : Array γ} {out new : Array β} {op : α → γ → β}
    (h : s.map2 a b out op = .ok new) :
    (one paths).map2 (rowSlice a r) (rowSlice b r) (rowSlice out r) op =
      .ok (rowSlice new r) :=
  map_slice hc hr paths h fun y hy => by rwa [rowOf_rowSlice, rowOf_rowSlice]

theorem update2_slice {acc new : Array β} {a : Array α} {b : Array γ} {op : β → α → γ → β}
    (h : s.update2 acc a b op = .ok new) :
    (one paths).update2 (rowSlice acc r) (rowSlice a r) (rowSlice b r) op =
      .ok (rowSlice new r) :=
  apply_slice hc h hr (fun _ y hy => by rwa [rowOf_rowSlice, rowOf_rowSlice]) paths

end Operands

theorem sourceLane_atRow {x : Register} {k : Kind} {i : Nat} {column : Array k.Elem}
    (h : Builtin.sourceLane x k i = .ok column) (r : Nat) :
    Builtin.sourceLane (x.atRow r) k i = .ok (rowSlice column r) :=
  Register.lane_atRow h r

theorem blank_atRow (hr : r ∈ s.chain.visited) (t : ShaderType) (paths : VectorPaths) :
    (s.blank t).atRow r = (one paths).blank t := by
  rw [blank, blank, Register.atRow_zeroed (LiveChain.lt_rows_of_mem_visited hr), one,
    LiveChain.rows_single]

/-! ## Componentwise operators -/

theorem kept_zip (hc : s.chain.Closed) {a b c : Kind} {x y out new : Register}
    {op : a.Elem → b.Elem → c.Elem} (h : s.zip x y out op = .ok new) :
    Register.Kept s.chain out new := by
  refine Outcome.foldlM_keeps (fun i _ out new hout h => hout.trans ?_) (.refl _ _) h
  obtain ⟨xs, -, h⟩ := Outcome.bind_eq_ok.1 h
  obtain ⟨ys, -, h⟩ := Outcome.bind_eq_ok.1 h
  exact Register.kept_modifyLane h fun _ _ h => Register.kept_apply hc h

theorem zip_atRow (hc : s.chain.Closed) (hr : r ∈ s.chain.visited) (paths : VectorPaths)
    {a b c : Kind} {x y out new : Register} {op : a.Elem → b.Elem → c.Elem}
    (h : s.zip x y out op = .ok new) :
    (one paths).zip (x.atRow r) (y.atRow r) (out.atRow r) op = .ok (new.atRow r) := by
  refine Outcome.foldlM_map_state (φ := (Register.atRow · r)) (fun i _ out new h => ?_) h
  obtain ⟨xs, hxs, h⟩ := Outcome.bind_eq_ok.1 h
  obtain ⟨ys, hys, h⟩ := Outcome.bind_eq_ok.1 h
  rw [sourceLane_atRow hxs, Outcome.ok_bind, sourceLane_atRow hys, Outcome.ok_bind]
  exact Register.modifyLane_atRow h fun _ _ h => map2_slice hc hr paths h

theorem kept_aggregate (hc : s.chain.Closed) {k : Kind} {wanted : Bool} {x y out new : Register}
    (h : s.aggregate k wanted x y out = .ok new) : Register.Kept s.chain out new := by
  obtain ⟨first, hfirst, h⟩ := Outcome.bind_eq_ok.1 h
  have hkept : Register.Kept s.chain out first := Register.kept_modifyLane hfirst fun _ _ h => by
    obtain ⟨xs, -, h⟩ := Outcome.bind_eq_ok.1 h
    obtain ⟨ys, -, h⟩ := Outcome.bind_eq_ok.1 h
    exact Register.kept_apply hc h
  refine Outcome.foldlM_keeps (fun i _ out new hout h => hout.trans ?_) hkept h
  refine Register.kept_modifyLane h fun _ _ h => ?_
  obtain ⟨xs, -, h⟩ := Outcome.bind_eq_ok.1 h
  obtain ⟨ys, -, h⟩ := Outcome.bind_eq_ok.1 h
  exact Register.kept_apply hc h

theorem aggregate_atRow (hc : s.chain.Closed) (hr : r ∈ s.chain.visited) (paths : VectorPaths)
    {k : Kind} {wanted : Bool} {x y out new : Register}
    (h : s.aggregate k wanted x y out = .ok new) :
    (one paths).aggregate k wanted (x.atRow r) (y.atRow r) (out.atRow r) =
      .ok (new.atRow r) := by
  obtain ⟨first, hfirst, h⟩ := Outcome.bind_eq_ok.1 h
  refine Outcome.bind_eq_ok.2 ⟨first.atRow r, ?_, ?_⟩
  · refine Register.modifyLane_atRow hfirst fun _ _ h => ?_
    obtain ⟨xs, hxs, h⟩ := Outcome.bind_eq_ok.1 h
    obtain ⟨ys, hys, h⟩ := Outcome.bind_eq_ok.1 h
    rw [Register.lane_atRow hxs, Outcome.ok_bind, Register.lane_atRow hys, Outcome.ok_bind]
    exact map2_slice hc hr paths h
  · refine Outcome.foldlM_map_state (φ := (Register.atRow · r)) (fun i _ out new h => ?_) h
    refine Register.modifyLane_atRow h fun _ _ h => ?_
    obtain ⟨xs, hxs, h⟩ := Outcome.bind_eq_ok.1 h
    obtain ⟨ys, hys, h⟩ := Outcome.bind_eq_ok.1 h
    rw [Register.lane_atRow hxs, Outcome.ok_bind, Register.lane_atRow hys, Outcome.ok_bind]
    exact update2_slice hc hr paths h

/-! ## Unary operators -/

theorem kept_unary (hc : s.chain.Closed) {op : UnaryOp} {x new : Register} {t : ShaderType}
    (h : s.unary op x t = .ok new) : Register.Kept s.chain (s.blank t) new := by
  unfold unary at h
  split at h
  · cases h
  · split at h
    · rw [← Except.ok.inj h]
      exact .refl _ _
    · split at h
      · cases h
      · refine Outcome.foldlM_keeps (fun i _ out new hout h => hout.trans ?_) (.refl _ _) h
        obtain ⟨xs, -, h⟩ := Outcome.bind_eq_ok.1 h
        exact Register.kept_modifyLane h fun _ _ h => Register.kept_apply hc h

theorem unary_atRow (hc : s.chain.Closed) (hr : r ∈ s.chain.visited) (paths : VectorPaths)
    {op : UnaryOp} {x new : Register} {t : ShaderType} (h : s.unary op x t = .ok new) :
    (one paths).unary op (x.atRow r) t = .ok (new.atRow r) := by
  unfold unary at h ⊢
  split at h
  · cases h
  · next ht =>
    rw [Register.type_atRow, if_neg ht]
    split at h
    · rw [← Except.ok.inj h, blank_atRow hr t paths]
    · split at h
      · cases h
      · rw [← blank_atRow hr t paths]
        refine Outcome.foldlM_map_state (φ := (Register.atRow · r)) (fun i _ out new h => ?_) h
        obtain ⟨xs, hxs, h⟩ := Outcome.bind_eq_ok.1 h
        rw [Register.lane_atRow hxs, Outcome.ok_bind]
        exact Register.modifyLane_atRow h fun _ _ h => map1_slice hc hr paths h

/-! ## Products of matrices and vectors -/

theorem kept_accumulateProducts (hc : s.chain.Closed) {x y out new : Register} {dst : Nat}
    {pairs : List (Nat × Nat)} (h : s.accumulateProducts x y out dst pairs = .ok new) :
    Register.Kept s.chain out new := by
  obtain ⟨old, hold, h⟩ := Outcome.bind_eq_ok.1 h
  obtain ⟨acc, hacc, h⟩ := Outcome.bind_eq_ok.1 h
  have hkept : acc.size = old.size ∧
      ∀ r, r ∉ s.chain.visited → rowSlice acc r = rowSlice old r := by
    refine Outcome.foldlM_keeps (P := fun acc => acc.size = old.size ∧
      ∀ r, r ∉ s.chain.visited → rowSlice acc r = rowSlice old r)
      (fun p _ acc new hacc h => ?_) ⟨rfl, fun _ _ => rfl⟩ hacc
    obtain ⟨xs, -, h⟩ := Outcome.bind_eq_ok.1 h
    obtain ⟨ys, -, h⟩ := Outcome.bind_eq_ok.1 h
    have hstep := Register.kept_apply hc h
    exact ⟨hstep.1.trans hacc.1, fun r hr => (hstep.2 r hr).trans (hacc.2 r hr)⟩
  rw [← Except.ok.inj h]
  exact Register.kept_setColumn (Register.lane_eq_ok.1 hold) hkept

theorem accumulateProducts_atRow (hc : s.chain.Closed) (hr : r ∈ s.chain.visited)
    (paths : VectorPaths) {x y out new : Register} {dst : Nat} {pairs : List (Nat × Nat)}
    (h : s.accumulateProducts x y out dst pairs = .ok new) :
    (one paths).accumulateProducts (x.atRow r) (y.atRow r) (out.atRow r) dst pairs =
      .ok (new.atRow r) := by
  obtain ⟨old, hold, h⟩ := Outcome.bind_eq_ok.1 h
  obtain ⟨acc, hacc, h⟩ := Outcome.bind_eq_ok.1 h
  refine Outcome.bind_eq_ok.2 ⟨_, Register.lane_atRow hold r, ?_⟩
  refine Outcome.bind_eq_ok.2 ⟨rowSlice acc r, ?_, ?_⟩
  · refine Outcome.foldlM_map_state (φ := (rowSlice · r)) (fun p _ acc new h => ?_) hacc
    obtain ⟨a, b⟩ := p
    dsimp only at h ⊢
    obtain ⟨xs, hxs, h⟩ := Outcome.bind_eq_ok.1 h
    obtain ⟨ys, hys, h⟩ := Outcome.bind_eq_ok.1 h
    rw [Register.lane_atRow hxs, Outcome.ok_bind, Register.lane_atRow hys, Outcome.ok_bind]
    exact update2_slice hc hr paths h
  · rw [← Except.ok.inj h, Register.setLane_atRow]
    rfl

/-- A product succeeds when both operands have its dimension and the sums do. -/
theorem linearProduct_eq_ok {x y out new : Register} :
    s.linearProduct x y out = .ok new ↔
      ∃ n, n = (if x.type.isMatrix then x.type.dimension else y.type.dimension) ∧
        (hasDimension n x.type && hasDimension n y.type) = true ∧
        (productTerms n x.type.isMatrix y.type.isMatrix).foldlM
          (fun out (dst, pairs) => s.accumulateProducts x y out dst pairs) out = .ok new := by
  unfold linearProduct
  dsimp only
  generalize (if x.type.isMatrix = true then x.type.dimension else y.type.dimension) = n
  rw [exists_eq_left]
  split <;> simp [*, Outcome.mismatch, Outcome.fail]

theorem kept_linearProduct (hc : s.chain.Closed) {x y out new : Register}
    (h : s.linearProduct x y out = .ok new) : Register.Kept s.chain out new := by
  obtain ⟨n, -, -, h⟩ := linearProduct_eq_ok.1 h
  exact Outcome.foldlM_keeps
    (fun p _ out new hout h => hout.trans (kept_accumulateProducts hc h)) (.refl _ _) h

theorem linearProduct_atRow (hc : s.chain.Closed) (hr : r ∈ s.chain.visited)
    (paths : VectorPaths) {x y out new : Register} (h : s.linearProduct x y out = .ok new) :
    (one paths).linearProduct (x.atRow r) (y.atRow r) (out.atRow r) = .ok (new.atRow r) := by
  obtain ⟨n, hn, hdim, h⟩ := linearProduct_eq_ok.1 h
  refine linearProduct_eq_ok.2 ⟨n, hn, hdim, ?_⟩
  exact Outcome.foldlM_map_state (φ := (Register.atRow · r))
    (fun p _ out new h => accumulateProducts_atRow hc hr paths h) h

/-! ## Binary operators -/

/-- An operator on components of one kind is a function of two components, a comparison as a
whole, or a mismatch. -/
theorem componentwise_form (op : BinaryOp) (k : Kind) :
    (∃ (a b c : Kind) (f : a.Elem → b.Elem → c.Elem),
      ∀ s x y out, componentwise s op k x y out = s.zip x y out f) ∨
    (∃ wanted, ∀ s x y out, componentwise s op k x y out =
      if x.type = y.type then s.aggregate k wanted x y out
      else Outcome.mismatch (.types x.type y.type)) ∨
    ∀ s x y out, componentwise s op k x y out =
      Outcome.mismatch (.operands op x.type y.type) := by
  cases op <;> cases k <;>
    first
    | exact .inl ⟨_, _, _, _, fun _ _ _ _ => rfl⟩
    | exact .inr (.inl ⟨_, fun _ _ _ _ => rfl⟩)
    | exact .inr (.inr fun _ _ _ _ => rfl)

theorem kept_componentwise (hc : s.chain.Closed) {op : BinaryOp} {k : Kind}
    {x y out new : Register} (h : s.componentwise op k x y out = .ok new) :
    Register.Kept s.chain out new := by
  obtain ⟨_, _, _, _, hf⟩ | ⟨_, hf⟩ | hf := componentwise_form op k <;> rw [hf] at h
  · exact kept_zip hc h
  · split at h
    · exact kept_aggregate hc h
    · cases h
  · cases h

theorem componentwise_atRow (hc : s.chain.Closed) (hr : r ∈ s.chain.visited)
    (paths : VectorPaths) {op : BinaryOp} {k : Kind} {x y out new : Register}
    (h : s.componentwise op k x y out = .ok new) :
    (one paths).componentwise op k (x.atRow r) (y.atRow r) (out.atRow r) =
      .ok (new.atRow r) := by
  obtain ⟨_, _, _, _, hf⟩ | ⟨_, hf⟩ | hf := componentwise_form op k <;> rw [hf] at h ⊢
  · exact zip_atRow hc hr paths h
  · split at h
    · next ht =>
      rw [if_pos (by exact ht)]
      exact aggregate_atRow hc hr paths h
    · cases h
  · cases h

/-- A binary operator succeeds on operands of one kind, as a product of matrices and vectors or
component by component. -/
theorem binary_eq_ok {op : BinaryOp} {x y new : Register} {t : ShaderType} :
    s.binary op x y t = .ok new ↔
      x.type.kind? = y.type.kind? ∧
        (isLinear op x.type y.type = true ∧ s.linearProduct x y (s.blank t) = .ok new ∨
          isLinear op x.type y.type = false ∧
            ∃ k, x.type.kind? = some k ∧ s.componentwise op k x y (s.blank t) = .ok new) := by
  unfold binary
  by_cases hk : x.type.kind? = y.type.kind?
  · cases isLinear op x.type y.type <;> cases hx : x.type.kind? <;>
      simp [← hk, hx, Outcome.mismatch, Outcome.fail]
  · simp [hk, Outcome.mismatch, Outcome.fail]

theorem kept_binary (hc : s.chain.Closed) {op : BinaryOp} {x y new : Register} {t : ShaderType}
    (h : s.binary op x y t = .ok new) : Register.Kept s.chain (s.blank t) new := by
  obtain ⟨-, ⟨-, h⟩ | ⟨-, k, -, h⟩⟩ := binary_eq_ok.1 h
  · exact kept_linearProduct hc h
  · exact kept_componentwise hc h

theorem binary_atRow (hc : s.chain.Closed) (hr : r ∈ s.chain.visited) (paths : VectorPaths)
    {op : BinaryOp} {x y new : Register} {t : ShaderType} (h : s.binary op x y t = .ok new) :
    (one paths).binary op (x.atRow r) (y.atRow r) t = .ok (new.atRow r) := by
  rw [binary_eq_ok, ← blank_atRow hr t paths] at *
  obtain ⟨hk, ⟨hl, h⟩ | ⟨hl, k, hx, h⟩⟩ := h
  · exact ⟨hk, .inl ⟨hl, linearProduct_atRow hc hr paths h⟩⟩
  · exact ⟨hk, .inr ⟨hl, k, hx, componentwise_atRow hc hr paths h⟩⟩

/-! ## Conversions -/

theorem kept_convertInto (hc : s.chain.Closed) {src : Lane} {out new : Register} {i : Nat}
    (h : s.convertInto src out i = .ok new) : Register.Kept s.chain out new := by
  unfold convertInto at h
  split at h
  · next dst hdst =>
    obtain ⟨lane, hlane, h⟩ := Outcome.bind_eq_ok.1 h
    obtain ⟨column, hcolumn, hlane⟩ := Outcome.bind_eq_ok.1 hlane
    rw [← Except.ok.inj h, ← Except.ok.inj hlane]
    exact Register.kept_setColumn hdst (Register.kept_apply hc hcolumn)
  · rw [← Except.ok.inj h]
    exact .refl _ _

theorem convertInto_atRow (hc : s.chain.Closed) (hr : r ∈ s.chain.visited)
    (paths : VectorPaths) {src : Lane} {out new : Register} {i : Nat}
    (h : s.convertInto src out i = .ok new) :
    (one paths).convertInto (src.atRow r) (out.atRow r) i = .ok (new.atRow r) := by
  unfold convertInto at h ⊢
  rw [Register.getElem?_lanes_atRow]
  split at h
  · next dst hdst =>
    obtain ⟨lane, hlane, h⟩ := Outcome.bind_eq_ok.1 h
    obtain ⟨column, hcolumn, hlane⟩ := Outcome.bind_eq_ok.1 hlane
    rw [hdst, ← Except.ok.inj h, Register.setLane_atRow, ← Except.ok.inj hlane]
    refine Outcome.bind_eq_ok.2 ⟨_, Outcome.bind_eq_ok.2 ⟨_, ?_, rfl⟩, rfl⟩
    exact map1_slice hc hr paths hcolumn
  · next hnone =>
    rw [hnone, ← Except.ok.inj h]
    rfl

theorem kept_fillOneInto (hc : s.chain.Closed) {out new : Register} {i : Nat}
    (h : s.fillOneInto out i = .ok new) : Register.Kept s.chain out new := by
  unfold fillOneInto at h
  split at h
  · next dst hdst =>
    obtain ⟨lane, hlane, h⟩ := Outcome.bind_eq_ok.1 h
    obtain ⟨column, hcolumn, hlane⟩ := Outcome.bind_eq_ok.1 hlane
    rw [← Except.ok.inj h, ← Except.ok.inj hlane]
    exact Register.kept_setColumn hdst (Register.kept_apply hc hcolumn)
  · rw [← Except.ok.inj h]
    exact .refl _ _

theorem fillOneInto_atRow (hc : s.chain.Closed) (hr : r ∈ s.chain.visited)
    (paths : VectorPaths) {out new : Register} {i : Nat} (h : s.fillOneInto out i = .ok new) :
    (one paths).fillOneInto (out.atRow r) i = .ok (new.atRow r) := by
  unfold fillOneInto at h ⊢
  rw [Register.getElem?_lanes_atRow]
  split at h
  · next dst hdst =>
    obtain ⟨lane, hlane, h⟩ := Outcome.bind_eq_ok.1 h
    obtain ⟨column, hcolumn, hlane⟩ := Outcome.bind_eq_ok.1 hlane
    rw [hdst, ← Except.ok.inj h, Register.setLane_atRow, ← Except.ok.inj hlane]
    refine Outcome.bind_eq_ok.2 ⟨_, Outcome.bind_eq_ok.2 ⟨_, ?_, rfl⟩, rfl⟩
    exact map_slice hc hr paths hcolumn fun _ hy => hy
  · next hnone =>
    rw [hnone, ← Except.ok.inj h]
    rfl

/-- Lanes converted into a register one after the other. -/
theorem kept_convertAll (hc : s.chain.Closed) {lanes : List (Lane × Nat)} {out new : Register}
    (h : lanes.foldlM (fun out (src, i) => s.convertInto src out i) out = .ok new) :
    Register.Kept s.chain out new :=
  Outcome.foldlM_keeps (fun _ _ _ _ hout h => hout.trans (kept_convertInto hc h)) (.refl _ _) h

theorem convertAll_atRow (hc : s.chain.Closed) (hr : r ∈ s.chain.visited) (paths : VectorPaths)
    {lanes : List Lane} {n : Nat} {out new : Register}
    (h : (lanes.zipIdx n).foldlM (fun out (src, i) => s.convertInto src out i) out = .ok new) :
    ((lanes.map (·.atRow r)).zipIdx n).foldlM
      (fun out (src, i) => (one paths).convertInto src out i) (out.atRow r) =
        .ok (new.atRow r) := by
  rw [List.zipIdx_map, List.foldlM_map]
  exact Outcome.foldlM_map_state (φ := (Register.atRow · r))
    (fun (_, _) _ _ _ h => convertInto_atRow hc hr paths h) h

/-- A lane converted into one of its own kind is copied at live rows. -/
theorem convertInto_copies (hc : s.chain.Closed) (hr : r ∈ s.chain.visited) {src dst : Lane}
    {out new : Register} {i : Nat} (hdst : out.lanes[i]? = some dst)
    (hkind : dst.kind = src.kind) (h : s.convertInto src out i = .ok new) :
    ∃ l, new = out.setLane i l ∧ l.atRow r = src.atRow r := by
  obtain ⟨k, old⟩ := dst
  obtain ⟨k', column⟩ := src
  dsimp only at hkind
  subst hkind
  rw [convertInto, hdst] at h
  obtain ⟨lane, hlane, h⟩ := Outcome.bind_eq_ok.1 h
  obtain ⟨copy, hcopy, hlane⟩ := Outcome.bind_eq_ok.1 hlane
  obtain ⟨_, y, -, hy, hnew⟩ := ((apply_eq_ok_iff hc).1 hcopy).live r hr
  obtain ⟨x, hx, hy⟩ := Outcome.bind_eq_ok.1 hy
  refine ⟨lane, (Except.ok.inj h).symm, ?_⟩
  rw [← Except.ok.inj hlane]
  refine congrArg (Lane.mk k) (rowSlice_congr ?_)
  rw [hnew, rowOf_eq_ok.1 hx, ← Except.ok.inj hy]
  exact congrArg some (Kind.convert_self k x)

/-- Lanes converted into lanes of their kinds, one after the other, are all copied at live rows. -/
theorem convertAll_copies (hc : s.chain.Closed) (hr : r ∈ s.chain.visited) {lanes : List Lane}
    {n : Nat} {out new : Register}
    (hkinds : ∀ (i : Nat) (src : Lane), lanes[i]? = some src →
      ∃ dst, out.lanes[n + i]? = some dst ∧ dst.kind = src.kind)
    (h : (lanes.zipIdx n).foldlM (fun out (src, i) => s.convertInto src out i) out = .ok new) :
    (∀ j < n, new.lanes[j]? = out.lanes[j]?) ∧
      ∀ (i : Nat) (src : Lane), lanes[i]? = some src →
        ∃ l, new.lanes[n + i]? = some l ∧ l.atRow r = src.atRow r := by
  induction lanes generalizing n out with
  | nil =>
    rw [← Except.ok.inj h]
    exact ⟨fun _ _ => rfl, fun i src hsrc => nomatch hsrc⟩
  | cons first lanes ih =>
    rw [List.zipIdx_cons, List.foldlM_cons] at h
    obtain ⟨mid, hmid, h⟩ := Outcome.bind_eq_ok.1 h
    obtain ⟨dst, hdst, hkind⟩ := hkinds 0 first rfl
    rw [Nat.add_zero] at hdst
    obtain ⟨l, rfl, hl⟩ := convertInto_copies hc hr hdst hkind hmid
    have hn : n < out.lanes.length := (List.getElem?_eq_some_iff.1 hdst).1
    have hother : ∀ j, j ≠ n → (out.setLane n l).lanes[j]? = out.lanes[j]? := fun j hj =>
      List.getElem?_set_ne (Ne.symm hj)
    obtain ⟨hbefore, hcopied⟩ := ih (n := n + 1) (fun i src hsrc => by
      obtain ⟨dst, hdst, hkind⟩ := hkinds (i + 1) src hsrc
      rw [hother _ (by omega), Nat.add_assoc, Nat.add_comm 1 i]
      exact ⟨dst, hdst, hkind⟩) h
    refine ⟨fun j hj => ?_, fun i src hsrc => ?_⟩
    · rw [hbefore j (by omega), hother j (by omega)]
    · cases i with
      | zero =>
        cases hsrc
        refine ⟨l, ?_, hl⟩
        rw [Nat.add_zero, hbefore n (Nat.lt_succ_self n)]
        exact List.getElem?_set_self hn
      | succ i =>
        rw [Nat.add_comm i 1, ← Nat.add_assoc]
        exact hcopied i src hsrc

/-! ## Swizzles -/

/-- A swizzle of the annotated type that selects components of the base. -/
theorem swizzle_eq_ok {base new : Register} {indices : List UInt8} {t : ShaderType} :
    s.swizzle base indices t = .ok new ↔
      ¬(indices.length ≠ t.components ∨ t.kind? ≠ base.type.kind?) ∧
        indices.zipIdx.foldlM
          (fun out (c, i) =>
            match base.lanes[c.toNat]? with
            | some src => s.convertInto src out i
            | none => Outcome.mismatch (.component c.toNat base.type))
          (s.blank t) = .ok new := by
  rw [swizzle]
  exact Outcome.check_eq_ok

theorem kept_swizzle (hc : s.chain.Closed) {base new : Register} {indices : List UInt8}
    {t : ShaderType} (h : s.swizzle base indices t = .ok new) :
    Register.Kept s.chain (s.blank t) new := by
  refine Outcome.foldlM_keeps (fun p _ out new hout h => hout.trans ?_) (.refl _ _)
    (swizzle_eq_ok.1 h).2
  dsimp only at h
  split at h
  · exact kept_convertInto hc h
  · cases h

theorem swizzle_atRow (hc : s.chain.Closed) (hr : r ∈ s.chain.visited) (paths : VectorPaths)
    {base new : Register} {indices : List UInt8} {t : ShaderType}
    (h : s.swizzle base indices t = .ok new) :
    (one paths).swizzle (base.atRow r) indices t = .ok (new.atRow r) := by
  obtain ⟨hfit, h⟩ := swizzle_eq_ok.1 h
  refine swizzle_eq_ok.2 ⟨hfit, ?_⟩
  rw [← blank_atRow hr t paths]
  refine Outcome.foldlM_map_state (φ := (Register.atRow · r)) (fun p _ out new h => ?_) h
  dsimp only at h ⊢
  rw [Register.getElem?_lanes_atRow]
  split at h
  · next src hsrc =>
    rw [hsrc]
    exact convertInto_atRow hc hr paths h
  · cases h

/-! ## Constructors -/

theorem kept_constructFromScalar (hc : s.chain.Closed) {t : ShaderType} {arg new : Register}
    (h : s.constructFromScalar t arg = .ok new) : Register.Kept s.chain (s.blank t) new := by
  obtain ⟨src, -, h⟩ := Outcome.bind_eq_ok.1 h
  exact Outcome.foldlM_keeps (fun _ _ _ _ hout h => hout.trans (kept_convertInto hc h))
    (.refl _ _) h

theorem require_atRow {x : Register} {i : Nat} {l : Lane}
    (h : Outcome.require x.lanes[i]? = .ok l) (r : Nat) :
    Outcome.require (x.atRow r).lanes[i]? = .ok (l.atRow r) := by
  rw [Register.getElem?_lanes_atRow]
  cases hl : x.lanes[i]? with
  | none =>
    rw [hl] at h
    cases h
  | some l' =>
    rw [hl] at h
    rw [← Except.ok.inj h]
    rfl

theorem constructFromScalar_atRow (hc : s.chain.Closed) (hr : r ∈ s.chain.visited)
    (paths : VectorPaths) {t : ShaderType} {arg new : Register}
    (h : s.constructFromScalar t arg = .ok new) :
    (one paths).constructFromScalar t (arg.atRow r) = .ok (new.atRow r) := by
  obtain ⟨src, hsrc, h⟩ := Outcome.bind_eq_ok.1 h
  refine Outcome.bind_eq_ok.2 ⟨_, require_atRow hsrc r, ?_⟩
  rw [← blank_atRow hr t paths]
  exact Outcome.foldlM_map_state (φ := (Register.atRow · r))
    (fun _ _ _ _ h => convertInto_atRow hc hr paths h) h

theorem kept_constructFromMatrix (hc : s.chain.Closed) {t : ShaderType} {arg new : Register}
    (h : s.constructFromMatrix t arg = .ok new) : Register.Kept s.chain (s.blank t) new := by
  refine Outcome.foldlM_keeps (fun p _ out new hout h => hout.trans ?_) (.refl _ _) h
  dsimp only at h
  split at h
  · obtain ⟨src, -, h⟩ := Outcome.bind_eq_ok.1 h
    exact kept_convertInto hc h
  · split at h
    · exact kept_fillOneInto hc h
    · rw [← Except.ok.inj h]
      exact .refl _ _

theorem constructFromMatrix_atRow (hc : s.chain.Closed) (hr : r ∈ s.chain.visited)
    (paths : VectorPaths) {t : ShaderType} {arg new : Register}
    (h : s.constructFromMatrix t arg = .ok new) :
    (one paths).constructFromMatrix t (arg.atRow r) = .ok (new.atRow r) := by
  unfold constructFromMatrix at h ⊢
  rw [← blank_atRow hr t paths]
  refine Outcome.foldlM_map_state (φ := (Register.atRow · r)) (fun p _ out new h => ?_) h
  dsimp only [Register.type_atRow] at h ⊢
  split at h
  · next hin =>
    obtain ⟨src, hsrc, h⟩ := Outcome.bind_eq_ok.1 h
    refine (if_pos hin).trans ?_
    rw [require_atRow hsrc r]
    exact convertInto_atRow hc hr paths h
  · next hout =>
    refine (if_neg hout).trans ?_
    split at h
    · next hdiag =>
      rw [if_pos hdiag]
      exact fillOneInto_atRow hc hr paths h
    · next hoff =>
      rw [if_neg hoff, ← Except.ok.inj h]

theorem constructFromComponents_eq_ok {t : ShaderType} {args : List Register} {new : Register} :
    s.constructFromComponents t args = .ok new ↔
      ¬((args.flatMap Register.lanes).take t.components).length < t.components ∧
        ((args.flatMap Register.lanes).take t.components).zipIdx.foldlM
          (fun out (src, i) => s.convertInto src out i) (s.blank t) = .ok new := by
  rw [constructFromComponents, Outcome.check_eq_ok]

theorem kept_constructFromComponents (hc : s.chain.Closed) {t : ShaderType}
    {args : List Register} {new : Register} (h : s.constructFromComponents t args = .ok new) :
    Register.Kept s.chain (s.blank t) new :=
  kept_convertAll hc (constructFromComponents_eq_ok.1 h).2

theorem constructFromComponents_atRow (hc : s.chain.Closed) (hr : r ∈ s.chain.visited)
    (paths : VectorPaths) {t : ShaderType} {args : List Register} {new : Register}
    (h : s.constructFromComponents t args = .ok new) :
    (one paths).constructFromComponents t (args.map (·.atRow r)) = .ok (new.atRow r) := by
  obtain ⟨henough, h⟩ := constructFromComponents_eq_ok.1 h
  have hlanes : (args.map (·.atRow r)).flatMap Register.lanes =
      (args.flatMap Register.lanes).map (·.atRow r) := by
    rw [List.flatMap_map, List.map_flatMap]
    rfl
  rw [constructFromComponents_eq_ok, hlanes, ← List.map_take, List.length_map,
    ← blank_atRow hr t paths]
  exact ⟨henough, convertAll_atRow hc hr paths h⟩

theorem kept_construct (hc : s.chain.Closed) {t : ShaderType} {args : List Register}
    {new : Register} (h : s.construct t args = .ok new) :
    Register.Kept s.chain (s.blank t) new := by
  unfold construct at h
  split at h
  · split at h
    · exact kept_constructFromScalar hc h
    · split at h
      · exact kept_constructFromMatrix hc h
      · exact kept_constructFromComponents hc h
  · exact kept_constructFromComponents hc h

theorem construct_atRow (hc : s.chain.Closed) (hr : r ∈ s.chain.visited) (paths : VectorPaths)
    {t : ShaderType} {args : List Register} {new : Register} (h : s.construct t args = .ok new) :
    (one paths).construct t (args.map (·.atRow r)) = .ok (new.atRow r) := by
  unfold construct at h ⊢
  match args with
  | [] | _ :: _ :: _ => exact constructFromComponents_atRow hc hr paths h
  | [arg] =>
    dsimp only [List.map, Register.type_atRow] at h ⊢
    split at h
    · next hscalar =>
      exact (if_pos hscalar).trans (constructFromScalar_atRow hc hr paths h)
    · next hscalar =>
      refine (if_neg hscalar).trans ?_
      split at h
      · next hmatrix =>
        exact (if_pos hmatrix).trans (constructFromMatrix_atRow hc hr paths h)
      · next hmatrix =>
        exact (if_neg hmatrix).trans (constructFromComponents_atRow hc hr paths h)

end BatchShader.Sweep
