import BatchShader.Proofs.Builtin.Standard
import BatchShader.Proofs.Restrict

/-
  Calls, row by row.

  `RowWise b`: a call of the overload changes nothing of the result but live rows; what it leaves
  at a live row is what the call on that row alone leaves; and it reads its arguments at live rows
  only. Overloads with two slots are row-wise because their slots agree. Texture lookups have one
  slot and are looked at here: each live row takes the texture of its own unit.
-/

namespace BatchShader

/-! ## Registers of one row -/

namespace Register

variable {x y : Register} {r : Nat} {v : Value}

theorem WellFormed.atRow (h : x.WellFormed) (hr : r < x.rows) : (x.atRow r).WellFormed where
  length_lanes := by
    rw [Register.atRow, List.length_map]
    exact h.length_lanes
  kind_lane l hl := by
    obtain ⟨l', hl', rfl⟩ := List.mem_map.1 hl
    exact h.kind_lane l' hl'
  rows_lane l hl := by
    obtain ⟨l', hl', rfl⟩ := List.mem_map.1 hl
    have hsize : r < l'.column.size := by
      have := h.rows_lane l' hl'
      rw [Lane.rows] at this
      omega
    exact size_rowSlice hsize

theorem lt_rows_of_rowValue? (h : x.rowValue? r = some v) : r < x.rows := by
  unfold Register.rowValue? at h
  split at h
  · assumption
  · cases h

/-- A register of one row is known from the value of the row. -/
theorem WellFormed.eq_splat (h : x.WellFormed) (hrows : x.rows = 1)
    (hv : x.rowValue? 0 = some v) : x = splat v 1 := by
  have hr : 0 < x.rows := by omega
  cases hk : x.type.kind? with
  | none =>
    rw [Register.rowValue?, if_pos hr, hk] at hv
    cases hv
  | some k =>
    obtain ⟨es, hes, -⟩ := h.exists_holds hk hr
    rw [hes.rowValue? hk hr] at hv
    obtain ⟨ht, hd⟩ := Value.type_of_new? hv
    have hlanes : x.lanes = es.map fun e => ⟨k, Array.replicate 1 e⟩ := by
      refine List.ext_getElem (by rw [List.length_map, hes.length_eq]) fun i hi hi' => ?_
      rw [List.length_map] at hi'
      obtain ⟨column, hcolumn, hget⟩ := hes.lane i _ (List.getElem?_eq_getElem hi')
      rw [lane_eq_ok, List.getElem?_eq_getElem hi, Option.some.injEq] at hcolumn
      have hsize : column.size = 1 := by
        have := h.rows_lane _ (List.getElem_mem hi)
        rwa [hcolumn, hrows] at this
      rw [List.getElem_map, hcolumn]
      refine congrArg (Lane.mk k) (Array.ext (by simpa using hsize) fun j hj hj' => ?_)
      obtain rfl : j = 0 := by omega
      rw [Array.getElem?_eq_getElem hj, Option.some.injEq] at hget
      simpa using hget
    rw [splat, ht, hd, ← hrows]
    simp only [Components.toList, List.map_map]
    cases x
    simp_all [Function.comp_def, Lane.splat]

theorem WellFormed.atRow_eq_splat (h : x.WellFormed) (hv : x.rowValue? r = some v) :
    x.atRow r = splat v 1 := by
  have hr := lt_rows_of_rowValue? hv
  exact (h.atRow hr).eq_splat rfl (by rw [rowValue?_atRow x hr, hv])

/-- Values of rows of registers, taken from the registers cut out at the row. -/
theorem mapM_rowValue?_atRow {args : List Register} (h : ∀ x ∈ args, r < x.rows) :
    (args.map (·.atRow r)).mapM (·.rowValue? 0) = args.mapM (·.rowValue? r) := by
  rw [List.mapM_map]
  induction args with
  | nil => rfl
  | cons x args ih =>
    rw [List.forall_mem_cons] at h
    rw [List.mapM_cons, List.mapM_cons, ih h.2, Function.comp_apply, rowValue?_atRow x h.1]

end Register

namespace Builtin

/-- A call treats the rows of a batch one by one. -/
structure RowWise (b : Builtin) : Prop where
  kept : ∀ {inv : Invocation} {args : List Register} {out out' : Register}, inv.chain.Closed →
    (∀ x ∈ args, x.WellFormed) → out.WellFormed → (b.execute inv args).run out = .ok () out' →
    Register.Kept inv.chain out out'
  atRow : ∀ {inv : Invocation} {args : List Register} {out out' : Register}, inv.chain.Closed →
    (∀ x ∈ args, x.WellFormed) → out.WellFormed → (b.execute inv args).run out = .ok () out' →
    ∀ {r : Nat}, r ∈ inv.chain.visited → ∀ paths : VectorPaths,
      (b.execute ⟨.one paths, inv.textures⟩ (args.map (·.atRow r))).run (out.atRow r) =
        .ok () (out'.atRow r)
  congr : ∀ {inv : Invocation} {args args' : List Register} {out out' : Register},
    inv.chain.Closed → (∀ x ∈ args, x.WellFormed) → (∀ x ∈ args', x.WellFormed) →
    out.WellFormed → args.map (·.restrict inv.chain) = args'.map (·.restrict inv.chain) →
    (b.execute inv args).run out = .ok () out' → (b.execute inv args').run out = .ok () out'

/-- A call that succeeds has a body, and fits. -/
theorem execute_eq_ok {b : Builtin} {inv : Invocation} {args : List Register}
    {out out' : Register} :
    (b.execute inv args).run out = .ok () out' ↔
      ∃ run, b.body.runtime = .implemented run ∧ b.checkCall inv args out = .ok () ∧
        (run inv args).run out = .ok () out' := by
  unfold execute
  cases b.body.runtime with
  | implemented run =>
    constructor
    · intro h
      obtain ⟨_, _, hget, h⟩ := Stateful.run_bind_eq_ok.1 h
      cases hget
      obtain ⟨_, _, hcheck, hrun⟩ := Stateful.run_bind_eq_ok.1 h
      obtain ⟨hcheck, rfl⟩ := Stateful.run_ofExcept_eq_ok.1 hcheck
      exact ⟨run, rfl, hcheck, hrun⟩
    · rintro ⟨_, hrun, hcheck, h⟩
      cases hrun
      refine Stateful.run_bind_eq_ok.2 ⟨out, out, rfl, ?_⟩
      exact Stateful.run_bind_eq_ok.2 ⟨(), out, Stateful.run_ofExcept_eq_ok.2 ⟨hcheck, rfl⟩, h⟩
  | noConstantForm => exact ⟨fun h => (nomatch h), fun ⟨_, h, _⟩ => nomatch h⟩
  | notImplemented => exact ⟨fun h => (nomatch h), fun ⟨_, h, _⟩ => nomatch h⟩

theorem fits_of_execute {b : Builtin} {inv : Invocation} {args : List Register}
    {out out' : Register} (hargs : ∀ x ∈ args, x.WellFormed) (hout : out.WellFormed)
    (h : (b.execute inv args).run out = .ok () out') :
    Fits b.signature inv.chain.rows args out := by
  obtain ⟨_, -, hcheck, -⟩ := execute_eq_ok.1 h
  exact fits_of_checkCall hargs hout hcheck

theorem Fits.atRow {s : Signature} {rows : Nat} {args : List Register} {out : Register}
    (h : Fits s rows args out) {r : Nat} (hr : r < rows) :
    Fits s 1 (args.map (·.atRow r)) (out.atRow r) where
  params := by rw [List.map_map, ← h.params]; rfl
  result := h.result
  args_wellFormed x hx := by
    obtain ⟨y, hy, rfl⟩ := List.mem_map.1 hx
    exact (h.args_wellFormed y hy).atRow (h.args_rows y hy ▸ hr)
  args_rows x hx := by
    obtain ⟨y, -, rfl⟩ := List.mem_map.1 hx
    rfl
  out_wellFormed := h.out_wellFormed.atRow (h.out_rows ▸ hr)
  out_rows := rfl

/-! ## Overloads with two slots -/

theorem SlotsAgree.kept {b : Builtin} (h : SlotsAgree b) {inv : Invocation}
    {args : List Register} {out out' : Register} (hc : inv.chain.Closed)
    (hfits : Fits b.signature inv.chain.rows args out)
    (hrun : (b.execute inv args).run out = .ok () out') :
    Register.Kept inv.chain out out' ∧ ∀ r ∈ inv.chain.visited, ∃ vs v,
      args.mapM (·.rowValue? r) = some vs ∧ b.evaluate vs = .ok (some v) ∧
        out'.rowValue? r = some v := by
  obtain ⟨out'', hrun', hkept, hrows⟩ := h inv args out hc hfits
  obtain rfl : out' = out'' := by
    rw [hrun] at hrun'
    cases hrun'
    rfl
  exact ⟨hkept, hrows⟩

theorem SlotsAgree.atRow {b : Builtin} (h : SlotsAgree b) {inv : Invocation}
    {args : List Register} {out out' : Register} (hc : inv.chain.Closed)
    (hfits : Fits b.signature inv.chain.rows args out)
    (hrun : (b.execute inv args).run out = .ok () out') {r : Nat} (hr : r ∈ inv.chain.visited)
    (paths : VectorPaths) :
    (b.execute ⟨.one paths, inv.textures⟩ (args.map (·.atRow r))).run (out.atRow r) =
      .ok () (out'.atRow r) := by
  have hlt := LiveChain.lt_rows_of_mem_visited hr
  obtain ⟨hkept, hrows⟩ := h.kept hc hfits hrun
  obtain ⟨vs, v, hvs, hv, hrow⟩ := hrows r hr
  have hfits₁ : Fits b.signature (Sweep.one paths).chain.rows (args.map (·.atRow r))
      (out.atRow r) := hfits.atRow hlt
  obtain ⟨out₁, hrun₁, hkept₁, hrows₁⟩ :=
    h ⟨.one paths, inv.textures⟩ _ _ (Sweep.closed_one paths) hfits₁
  obtain ⟨vs₁, v₁, hvs₁, hv₁, hrow₁⟩ := hrows₁ 0 (by
    rw [Sweep.one, LiveChain.visited_single]
    exact List.mem_cons_self)
  rw [Register.mapM_rowValue?_atRow fun x hx => hfits.args_rows x hx ▸ hlt, hvs,
    Option.some.injEq] at hvs₁
  rw [← hvs₁, hv, Except.ok.injEq, Option.some.injEq] at hv₁
  have hwf := hkept.wellFormed hfits.out_wellFormed
  rw [hrun₁, hwf.atRow_eq_splat hrow, hv₁]
  exact congrArg _ ((hkept₁.wellFormed hfits₁.out_wellFormed).eq_splat
    (hkept₁.rows_eq.trans rfl) hrow₁)

theorem types_eq_of_restrict {c : LiveChain} {args args' : List Register}
    (h : args.map (·.restrict c) = args'.map (·.restrict c)) :
    args'.map Register.type = args.map Register.type := by
  have := congrArg (List.map Register.type) h
  simpa only [List.map_map, Function.comp_def, Register.type_restrict] using this.symm

theorem forall_rows_of_restrict {c : LiveChain} {args args' : List Register}
    (h : args.map (·.restrict c) = args'.map (·.restrict c)) {n : Nat}
    (hrows : ∀ x ∈ args, x.rows = n) : ∀ x ∈ args', x.rows = n := by
  have hmap := congrArg (List.map Register.rows) h
  simp only [List.map_map, Function.comp_def, Register.rows_restrict] at hmap
  have hall : ∀ m ∈ args'.map Register.rows, m = n := by
    rw [← hmap]
    exact List.forall_mem_map.2 hrows
  exact List.forall_mem_map.1 hall

theorem mapM_rowValue?_restrict {c : LiveChain} {r : Nat} (hr : r ∈ c.visited)
    {args : List Register} (hrows : ∀ x ∈ args, r < x.rows) :
    (args.map (·.restrict c)).mapM (·.rowValue? r) = args.mapM (·.rowValue? r) := by
  have hrows' : ∀ x ∈ args.map (·.restrict c), r < x.rows := fun x hx => by
    obtain ⟨y, hy, rfl⟩ := List.mem_map.1 hx
    exact hrows y hy
  rw [← Register.mapM_rowValue?_atRow hrows', ← Register.mapM_rowValue?_atRow hrows, List.map_map]
  congr 1
  exact List.map_congr_left fun x _ => Register.atRow_restrict hr x

theorem SlotsAgree.congr {b : Builtin} (h : SlotsAgree b) {inv : Invocation}
    {args args' : List Register} {out out' : Register} (hc : inv.chain.Closed)
    (hfits : Fits b.signature inv.chain.rows args out) (hargs' : ∀ x ∈ args', x.WellFormed)
    (hsame : args.map (·.restrict inv.chain) = args'.map (·.restrict inv.chain))
    (hrun : (b.execute inv args).run out = .ok () out') :
    (b.execute inv args').run out = .ok () out' := by
  have hrows' := forall_rows_of_restrict hsame hfits.args_rows
  obtain ⟨hkept, hrows⟩ := h.kept hc hfits hrun
  obtain ⟨out'', hrun', hkept', hrows''⟩ := h inv args' out hc
    ⟨(types_eq_of_restrict hsame).trans hfits.params, hfits.result, hargs', hrows',
      hfits.out_wellFormed, hfits.out_rows⟩
  have hwf := hkept.wellFormed hfits.out_wellFormed
  have hwf' := hkept'.wellFormed hfits.out_wellFormed
  rw [hrun']
  refine congrArg _ (Register.ext_of_atRow hwf (hkept'.shape_eq.trans hkept.shape_eq.symm)
    fun r _ => ?_)
  by_cases hr : r ∈ inv.chain.visited
  · have hlt := LiveChain.lt_rows_of_mem_visited hr
    obtain ⟨vs, v, hvs, hv, hrow⟩ := hrows r hr
    obtain ⟨vs', v', hvs', hv', hrow'⟩ := hrows'' r hr
    rw [← mapM_rowValue?_restrict hr fun x hx => hrows' x hx ▸ hlt, ← hsame,
      mapM_rowValue?_restrict hr fun x hx => hfits.args_rows x hx ▸ hlt, hvs,
      Option.some.injEq] at hvs'
    rw [← hvs', hv, Except.ok.injEq, Option.some.injEq] at hv'
    rw [hwf'.atRow_eq_splat hrow', hwf.atRow_eq_splat hrow, hv']
  · rw [hkept'.atRow_eq r hr, hkept.atRow_eq r hr]

theorem SlotsAgree.rowWise {b : Builtin} (h : SlotsAgree b) : RowWise b where
  kept hc hargs hout hrun := (h.kept hc (fits_of_execute hargs hout hrun) hrun).1
  atRow hc hargs hout hrun := h.atRow hc (fits_of_execute hargs hout hrun) hrun
  congr hc hargs hargs' hout hsame hrun :=
    h.congr hc (fits_of_execute hargs hout hrun) hargs' hsame hrun

theorem rowWise_missing (s : Signature) : RowWise ⟨s, .missing⟩ where
  kept _ _ _ hrun := by cases hrun
  atRow _ _ _ hrun := by cases hrun
  congr _ _ _ _ _ hrun := by cases hrun

/-- What a constant form gives on the arguments' values at a live row is what a call leaves there. -/
theorem Catalogued.rowValue?_eq {b : Builtin} (h : Catalogued b) {inv : Invocation}
    {args : List Register} {out out' : Register} (hc : inv.chain.Closed)
    (hargs : ∀ x ∈ args, x.WellFormed) (hout : out.WellFormed)
    (hrun : (b.execute inv args).run out = .ok () out') {r : Nat} (hr : r ∈ inv.chain.visited)
    {vs : List Value} (hvs : args.mapM (·.rowValue? r) = some vs) {v : Value}
    (hv : b.evaluate vs = .ok (some v)) : out'.rowValue? r = some v := by
  cases h with
  | agree _ h =>
    obtain ⟨vs', v', hvs', hv', hrow⟩ :=
      (h.kept hc (fits_of_execute hargs hout hrun) hrun).2 r hr
    rw [hvs, Option.some.injEq] at hvs'
    rw [← hvs', hv, Except.ok.injEq, Option.some.injEq] at hv'
    rw [hrow, hv']
  | texture hs => cases hv
  | missing s => cases hv

end Builtin

end BatchShader
