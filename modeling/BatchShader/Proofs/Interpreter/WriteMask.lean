import BatchShader.Proofs.Builtin.Standard
import BatchShader.Proofs.Interpreter.Components
import BatchShader.Proofs.Interpreter.Names

/-
  Write masks and swizzles are two views of one selection of components.

  What has been written through a mask without repetition is read back by the swizzle
  (`swizzle_writeLanes`), writing back what the swizzle reads changes nothing
  (`writeLanes_swizzle`), and of two writes through one mask the last counts
  (`writeLanes_writeLanes`). `mask_swizzle_inverse` says the same of statements.
-/

namespace BatchShader.Interpreter

variable {it : Interpreter} {b b' : Batch} {c : LiveChain} {target : String}
  {indices : List UInt8} {value dst R : Register}

/-! ## Registers -/

/-- A selection of components of one register that fits the type of another one. -/
structure Selects (indices : List UInt8) (dst value : Register) : Prop where
  length_eq : indices.length = value.type.components
  kind_eq : dst.type.kind? = value.type.kind?
  bound : ∀ k ∈ indices, k.toNat < dst.type.components

theorem Selects.lanes (h : Selects indices dst value) :
    ∀ j ∈ indices.map UInt8.toNat, j < dst.type.components := List.forall_mem_map.2 h.bound

theorem Selects.congr {dst' : Register} (h : Selects indices dst value)
    (ht : dst'.type = dst.type) : Selects indices dst' value :=
  ⟨h.length_eq, ht ▸ h.kind_eq, ht ▸ h.bound⟩

/-- What has been written through a mask without repetition is read back. -/
theorem swizzle_writeLanes (hc : c.Closed) (hvalue : value.Spans c.rows)
    (hdst : dst.Spans c.rows) (h : Selects indices dst value) (hnodup : indices.Nodup)
    (hwrite : it.writeLanes c target value (indices.map UInt8.toNat) dst = .ok R) :
    ∃ S, (it.sweep c).swizzle R indices value.type = .ok S ∧
      ∀ r ∈ c.visited, S.atRow r = value.atRow r := by
  have hkept := kept_writeLanes hc hwrite
  have hR := hdst.kept hkept
  have hclosed : (it.sweep c).chain.Closed := hc
  obtain ⟨S, hS⟩ := Sweep.exists_swizzle hclosed hR h.length_eq
    (by rw [hkept.type_eq, h.kind_eq]) (h.congr hkept.type_eq).bound
  have hSkept := Sweep.kept_swizzle hclosed hS
  have hSwf := hSkept.wellFormed (Register.zeroed_wellFormed _ _)
  refine ⟨S, hS, fun r hr => Register.atRow_eq_of_component hvalue.1 hSwf hSkept.type_eq
    fun i hi => ?_⟩
  rw [← h.length_eq] at hi
  have hk := List.getElem?_eq_getElem hi
  have hlane : (indices.map UInt8.toNat)[i]? = some indices[i].toNat := by
    rw [List.getElem?_map, hk]
    rfl
  rw [Sweep.swizzle_component hclosed hr hR.1 hS hk]
  refine (writeLanes_component hc hr hvalue.1 hdst.1 h.kind_eq h.lanes hwrite).2 i _ hlane
    fun i' hi' hlane' => ?_
  -- a lane is written once only
  have hnodup' : (indices.map UInt8.toNat).Nodup :=
    hnodup.map fun _ _ => UInt8.toNat_inj.1
  have hsame := (List.getElem?_inj (List.getElem?_eq_some_iff.1 hlane).1 hnodup').1
    (hlane.trans hlane'.symm)
  omega

/-- Writing back what is there changes nothing, whether or not indices are repeated. -/
theorem writeLanes_swizzle (hc : c.Closed) (hdst : dst.Spans c.rows) {S : Register}
    (hS : S.WellFormed) (h : Selects indices dst S)
    (hswizzle : (it.sweep c).swizzle dst indices S.type = .ok S)
    (hwrite : it.writeLanes c target S (indices.map UInt8.toNat) dst = .ok R) : R = dst := by
  have hkept := kept_writeLanes hc hwrite
  have hclosed : (it.sweep c).chain.Closed := hc
  refine Register.ext_of_atRow hdst.1 hkept.shape_eq fun r _ => ?_
  by_cases hr : r ∈ c.visited
  · have hR := (hdst.kept hkept).1
    obtain ⟨hothers, hlast⟩ := writeLanes_component hc hr hS hdst.1 h.kind_eq h.lanes hwrite
    refine Register.atRow_eq_of_component hdst.1 hR hkept.type_eq fun j _ => ?_
    by_cases hj : j ∈ indices.map UInt8.toNat
    · obtain ⟨i, hi, hafter⟩ := exists_last_getElem? hj
      rw [hlast i j hi hafter]
      rw [List.getElem?_map, Option.map_eq_some_iff] at hi
      obtain ⟨k, hk, rfl⟩ := hi
      exact Sweep.swizzle_component hclosed hr hdst.1 hswizzle hk
    · exact hothers j hj
  · exact hkept.atRow_eq r hr

/-- Of two writes through one mask the last counts. -/
theorem writeLanes_writeLanes (hc : c.Closed) {value₁ value₂ mid : Register}
    (hvalue₁ : value₁.Spans c.rows) (hvalue₂ : value₂.Spans c.rows) (hdst : dst.Spans c.rows)
    (h₁ : Selects indices dst value₁) (h₂ : Selects indices dst value₂)
    (hwrite₁ : it.writeLanes c target value₁ (indices.map UInt8.toNat) dst = .ok mid)
    (hwrite₂ : it.writeLanes c target value₂ (indices.map UInt8.toNat) mid = .ok R) :
    it.writeLanes c target value₂ (indices.map UInt8.toNat) dst = .ok R := by
  have hkept₁ := kept_writeLanes hc hwrite₁
  have hkept₂ := kept_writeLanes hc hwrite₂
  have hmid := hdst.kept hkept₁
  have hR := hmid.kept hkept₂
  have hlength : (indices.map UInt8.toNat).length = value₂.type.components := by
    rw [List.length_map, h₂.length_eq]
  obtain ⟨R', hwrite⟩ := exists_writeLanes it target hc hvalue₂ hdst hlength h₂.lanes
  have hkept := kept_writeLanes hc hwrite
  suffices R' = R by rw [hwrite, this]
  refine Register.ext_of_atRow hR.1 ?_ fun r _ => ?_
  · rw [hkept.shape_eq, hkept₂.shape_eq, hkept₁.shape_eq]
  by_cases hr : r ∈ c.visited
  · have h₂' := h₂.congr hkept₁.type_eq
    obtain ⟨hothers, hlast⟩ :=
      writeLanes_component hc hr hvalue₂.1 hdst.1 h₂.kind_eq h₂.lanes hwrite
    obtain ⟨hothers₁, -⟩ :=
      writeLanes_component hc hr hvalue₁.1 hdst.1 h₁.kind_eq h₁.lanes hwrite₁
    obtain ⟨hothers₂, hlast₂⟩ :=
      writeLanes_component hc hr hvalue₂.1 hmid.1 h₂'.kind_eq h₂'.lanes hwrite₂
    have htype : R'.type = R.type := by rw [hkept.type_eq, hkept₂.type_eq, hkept₁.type_eq]
    refine Register.atRow_eq_of_component hR.1 (hdst.kept hkept).1 htype fun j _ => ?_
    by_cases hj : j ∈ indices.map UInt8.toNat
    · obtain ⟨i, hi, hafter⟩ := exists_last_getElem? hj
      rw [hlast i j hi hafter, hlast₂ i j hi hafter]
    · rw [hothers j hj, hothers₂ j hj, hothers₁ j hj]
  · rw [hkept.atRow_eq r hr, hkept₂.atRow_eq r hr, hkept₁.atRow_eq r hr]

/-! ## Statements -/

/-- An assignment through a mask to a variable that is there. -/
theorem assign_masked_eq_ok (hb : b.Sound) (hdst : b.store.get? target = some dst) :
    (it.assign c target (some indices) value).run b = .ok () b' ↔
      Selects indices dst value ∧
        ∃ R, it.writeLanes c target value (indices.map UInt8.toNat) dst = .ok R ∧
          b' = { b with store := b.store.put target R } := by
  have hcontains := Store.contains_eq_true_iff.2 ⟨dst, hdst⟩
  rw [assign_eq_ok]
  constructor
  · rintro ⟨mid, dst', lanes, written, hdeclare, hdst', hlanes, hwrite, rfl⟩
    obtain ⟨-, rfl⟩ | ⟨hnone, -, -⟩ := (declareTarget_eq_ok hb).1 hdeclare
    · obtain rfl : dst' = dst := Option.some.inj (hdst'.symm.trans hdst)
      obtain ⟨hlength, hkind, hbound, rfl⟩ := targetLanes_some_eq_ok.1 hlanes
      exact ⟨⟨hlength, hkind, hbound⟩, written, hwrite, rfl⟩
    · rw [hcontains] at hnone
      cases hnone
  · rintro ⟨h, R, hwrite, rfl⟩
    exact ⟨b, dst, _, R, (declareTarget_eq_ok hb).2 (.inl ⟨hcontains, rfl⟩), hdst,
      targetLanes_some_eq_ok.2 ⟨h.length_eq, h.kind_eq, h.bound, rfl⟩, hwrite, rfl⟩

/-- A row of a register of a type with components has a value. -/
theorem exists_rowValue {x : Register} (hx : x.WellFormed) (ht : x.type.components ≠ 0) {r : Nat}
    (hr : r < x.rows) : ∃ v, x.rowValue? r = some v := by
  cases hk : x.type.kind? with
  | none =>
    rw [ShaderType.kind?_eq_none.1 hk] at ht
    exact absurd rfl ht
  | some k =>
    obtain ⟨es, hholds, hlength⟩ := hx.exists_holds hk hr
    rw [hholds.rowValue? hk hr, Value.new?, dif_pos ⟨hk, hlength⟩]
    exact ⟨_, rfl⟩

section Laws

variable (hit : it.Catalogued) (hb : b.Sound) (hc : c.Canonical) (hrows : c.rows = b.rows)
  {x : String} {V : Register} (hV : b.store.get? x = some V)

include hit hb hc hrows hV

/-- The swizzle reads what has been assigned through the mask. -/
theorem eval_swizzle_of_assign (hnodup : indices.Nodup) {e : Expr} {c' : LiveChain}
    (h : (it.execStmt c (.assign x (some indices) e)).run b = .ok c' b') :
    indices.length = e.type.components ∧ ∃ R S, it.eval b c e = .ok R ∧
      it.eval b' c (.swizzle (.var x V.type) indices e.type) = .ok S ∧
      R.type = e.type ∧ R.Spans c.rows ∧ S.rows = c.rows ∧
      ∀ r ∈ c.visited, S.atRow r = R.atRow r := by
  have hclosed := hc.closed
  have hspans : V.Spans c.rows := by
    rw [hrows]
    exact hb.wellFormed x V hV
  obtain ⟨R, hR, hassign, -⟩ := execStmt_assign_eq_ok.1 h
  obtain ⟨ht, hRspans⟩ := spans_of_eval hit hb hc hrows hR
  obtain ⟨hselects, W, hwrite, rfl⟩ := (assign_masked_eq_ok hb hV).1 hassign
  obtain ⟨S, hS, hsame⟩ := swizzle_writeLanes hclosed hRspans hspans hselects hnodup hwrite
  have hvar : it.eval { b with store := b.store.put x W } c (.var x V.type) = .ok W :=
    eval_var_eq_ok.2 ⟨Store.get?_put_self .., (kept_writeLanes hclosed hwrite).type_eq⟩
  have hSrows : S.rows = c.rows := (Sweep.kept_swizzle (s := it.sweep c) hclosed hS).rows_eq
  refine ⟨ht ▸ hselects.length_eq, R, S, hR, ?_, ht, hRspans, hSrows, hsame⟩
  rw [eval, hvar, Outcome.ok_bind, ← ht, hS]

/-- A variable can be assigned what its swizzle reads, and nothing changes. -/
theorem execStmt_own_swizzle (hnames : b.store.Ascending) {t : ShaderType}
    (hkind : t.kind? = V.type.kind?) (hlength : t.components = indices.length)
    (hbound : ∀ k ∈ indices, k.toNat < V.type.components) :
    (it.execStmt c (.assign x (some indices) (.swizzle (.var x V.type) indices t))).run b =
      .ok c b := by
  have hclosed := hc.closed
  have hspans : V.Spans c.rows := by
    rw [hrows]
    exact hb.wellFormed x V hV
  have hvar : it.eval b c (.var x V.type) = .ok V := eval_var_eq_ok.2 ⟨hV, rfl⟩
  obtain ⟨S, hS⟩ :=
    Sweep.exists_swizzle (s := it.sweep c) hclosed hspans hlength.symm hkind hbound
  have heval : it.eval b c (.swizzle (.var x V.type) indices t) = .ok S := by
    rw [eval, hvar, Outcome.ok_bind, hS]
  obtain ⟨rfl, hSspans⟩ := spans_of_eval hit hb hc hrows heval
  have hselects : Selects indices V S := ⟨hlength.symm, hkind.symm, hbound⟩
  obtain ⟨W, hwrite⟩ := exists_writeLanes it x hclosed hSspans hspans
    (by rw [List.length_map, hselects.length_eq]) hselects.lanes
  refine execStmt_assign_eq_ok.2 ⟨S, heval, (assign_masked_eq_ok hb hV).2 ⟨hselects, W, hwrite, ?_⟩,
    rfl⟩
  rw [writeLanes_swizzle hclosed hspans hSspans.1 hselects hS hwrite, hnames.put_self hV]

/-- What is assigned through a mask is not seen after an assignment through the same mask. -/
theorem execStmt_assign_again {e₁ e₂ : Expr} (hreads : e₂.reads = []) {b₁ b₂ : Batch}
    (h₁ : (it.execStmt c (.assign x (some indices) e₁)).run b = .ok c b₁)
    (h₂ : (it.execStmt c (.assign x (some indices) e₂)).run b₁ = .ok c b₂) :
    (it.execStmt c (.assign x (some indices) e₂)).run b = .ok c b₂ := by
  have hclosed := hc.closed
  have hspans : V.Spans c.rows := by
    rw [hrows]
    exact hb.wellFormed x V hV
  obtain ⟨R₁, hR₁, hassign₁, -⟩ := execStmt_assign_eq_ok.1 h₁
  obtain ⟨R₂, hR₂, hassign₂, -⟩ := execStmt_assign_eq_ok.1 h₂
  obtain ⟨hselects₁, W₁, hwrite₁, rfl⟩ := (assign_masked_eq_ok hb hV).1 hassign₁
  have hkept₁ := kept_writeLanes hclosed hwrite₁
  have hsound₁ := (Batch.frame_put hb hV hkept₁).sound
  -- without a variable to read, the second value does not depend on the first assignment
  have hsize : ({ b with store := b.store.put x W₁ } : Batch).rows = b.rows := rfl
  have hsame : it.eval { b with store := b.store.put x W₁ } c e₂ = it.eval b c e₂ :=
    eval_congr hsize rfl c e₂ fun y hy => by
      rw [hreads] at hy
      cases hy
  rw [hsame] at hR₂
  obtain ⟨-, hR₁spans⟩ := spans_of_eval hit hb hc hrows hR₁
  obtain ⟨-, hR₂spans⟩ := spans_of_eval hit hb hc hrows hR₂
  obtain ⟨hselects₂, W₂, hwrite₂, rfl⟩ :=
    (assign_masked_eq_ok hsound₁ (Store.get?_put_self ..)).1 hassign₂
  have hselects := hselects₂.congr hkept₁.type_eq.symm
  refine execStmt_assign_eq_ok.2 ⟨R₂, hR₂, ?_, rfl⟩
  refine (assign_masked_eq_ok hb hV).2 ⟨hselects, W₂, ?_, by rw [Store.put_put]⟩
  exact writeLanes_writeLanes hclosed hR₁spans hR₂spans hspans hselects₁ hselects hwrite₁ hwrite₂

end Laws

/-- Write masks and swizzles are inverse views of a variable, under any chain of rows of the batch.
What is assigned through a mask without repetition is read back by the swizzle at the live rows.
Assigning the swizzle of a variable through the same mask changes nothing. And of two assignments
through one mask the last counts, if it reads no variable. -/
theorem mask_swizzle_inverse {registry : Registry Implementation}
    (hregistry : Builtin.standard = .ok registry) (config : Config) (hb : b.Reachable)
    (hc : c.Built) (hrows : c.rows = b.rows) {x : String} {V : Register}
    (hV : b.store.get? x = some V) {indices : List UInt8} (hne : indices ≠ []) :
    let it : Interpreter := ⟨registry, config⟩
    (indices.Nodup → ∀ e b', (it.execStmt c (.assign x (some indices) e)).run b = .ok c b' →
        ∃ R S, it.eval b c e = .ok R ∧
          it.eval b' c (.swizzle (.var x V.type) indices e.type) = .ok S ∧
          ∀ r ∈ c.visited, ∃ v, R.rowValue? r = some v ∧ S.rowValue? r = some v) ∧
      (∀ t : ShaderType, t.kind? = V.type.kind? → t.components = indices.length →
        (∀ k ∈ indices, k.toNat < V.type.components) →
        (it.execStmt c (.assign x (some indices) (.swizzle (.var x V.type) indices t))).run b =
          .ok c b) ∧
      ∀ e₁ e₂ b₁ b₂, e₂.reads = [] →
        (it.execStmt c (.assign x (some indices) e₁)).run b = .ok c b₁ →
        (it.execStmt c (.assign x (some indices) e₂)).run b₁ = .ok c b₂ →
        (it.execStmt c (.assign x (some indices) e₂)).run b = .ok c b₂ := by
  intro it
  have hit : it.Catalogued := catalogued_of_standard hregistry config
  have hcanonical := hc.canonical
  refine ⟨fun hnodup e b' h => ?_, fun t hkind hlength hbound => ?_,
    fun e₁ e₂ b₁ b₂ hreads h₁ h₂ => ?_⟩
  · obtain ⟨hlength, R, S, hR, hS, ht, hRspans, hSrows, hsame⟩ :=
      eval_swizzle_of_assign hit hb.sound hcanonical hrows hV hnodup h
    refine ⟨R, S, hR, hS, fun r hr => ?_⟩
    have hlt : r < c.rows := LiveChain.lt_rows_of_mem_visited hr
    have hRlt : r < R.rows := hRspans.2.symm ▸ hlt
    have hcomponents : R.type.components ≠ 0 := by
      rw [ht, ← hlength]
      exact fun h => hne (List.length_eq_zero_iff.1 h)
    obtain ⟨v, hv⟩ := exists_rowValue hRspans.1 hcomponents hRlt
    refine ⟨v, hv, ?_⟩
    rw [← S.rowValue?_atRow (hSrows.symm ▸ hlt), hsame r hr, R.rowValue?_atRow hRlt, hv]
  · exact execStmt_own_swizzle hit hb.sound hcanonical hrows hV hb.ascending hkind hlength hbound
  · exact execStmt_assign_again hit hb.sound hcanonical hrows hV hreads h₁ h₂

theorem mask_swizzle_inverse_swapped :
    let it : Interpreter := ⟨Builtin.standardRegistry, .standard⟩
    let v : Expr := .var "v" .bvec2
    let on : Expr := .const ⟨.bvec2, ⟨.bool, [true, true]⟩, rfl, rfl⟩
    let assign (e : Expr) : Stmt := .assign "v" (some [1, 0]) e
    ∃ b c b₁ b₂, b.Reachable ∧ c.Built ∧ c.rows = b.rows ∧ c.isEmpty = false ∧
      (it.execStmt c (assign v)).run b = .ok c b₁ ∧
      (it.execStmt c (assign on)).run b₁ = .ok c b₂ ∧
      (∃ R S, it.eval b c v = .ok R ∧ it.eval b₁ c (.swizzle v [1, 0] .bvec2) = .ok S ∧
        ∀ r ∈ c.visited, ∃ value, R.rowValue? r = some value ∧ S.rowValue? r = some value) ∧
      (it.execStmt c (assign (.swizzle v [1, 0] .bvec2))).run b = .ok c b ∧
      (it.execStmt c (assign on)).run b = .ok c b₂ := by
  intro it v on assign
  let input : Register :=
    ⟨.bvec2, 3, [⟨.bool, #[true, true, true]⟩, ⟨.bool, #[false, true, false]⟩]⟩
  let b : Batch :=
    { Batch.ofChain (.build 3 [0, 1, 2]) with store := (Store.new 3).put "v" input }
  let c : LiveChain := .build 3 [0, 2]
  have hinput : input.WellFormed :=
    ⟨rfl, by simp [input, ShaderType.kind?], by simp [input, Lane.rows]⟩
  have hb : b.Reachable := .setInput (.new (by exact rfl : Batch.new 3 = .ok _)) hinput rfl
  have hc : c.Built := .ofMask (by exact rfl : LiveChain.ofMask #[true, false, true] = .ok c)
  have hlive : c.isEmpty = false := by decide +kernel
  obtain ⟨b₂, hblock, -⟩ := Stateful.exists_run_eq_ok (s := b) (P := fun _ => true)
    (x := it.execBlock c [assign v, assign on]) (by decide +kernel)
  obtain ⟨c₁, b₁, h₁, hblock⟩ := (execBlock_cons_eq_ok hlive).1 hblock
  obtain ⟨_, -, -, rfl⟩ := execStmt_assign_eq_ok.1 h₁
  obtain ⟨c₂, b₂, h₂, -⟩ := (execBlock_cons_eq_ok hlive).1 hblock
  obtain ⟨_, -, -, rfl⟩ := execStmt_assign_eq_ok.1 h₂
  have hV : b.store.get? "v" = some input := by decide +kernel
  obtain ⟨hback, hown, hagain⟩ := mask_swizzle_inverse Builtin.standard_eq_ok .standard hb hc rfl
    hV (List.cons_ne_nil 1 [0])
  exact ⟨b, c, b₁, b₂, hb, hc, rfl, hlive, h₁, h₂, hback (by decide) v b₁ h₁,
    hown .bvec2 rfl rfl (by decide +kernel), hagain v on b₁ b₂ rfl h₁ h₂⟩

end BatchShader.Interpreter
