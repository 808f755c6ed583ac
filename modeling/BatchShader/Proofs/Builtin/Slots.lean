import BatchShader.Builtin.Componentwise
import BatchShader.Proofs.Result

/-
  The two slots of an overload agree.

  `SlotsAgree b`: on registers that fit the signature, the overload runs and leaves rows that are
  not live as they are, and at each live row its constant form gives, from the arguments' values at
  the row, the value that the result then holds there. `slotsAgree_both` reduces this to an
  implementation's two bodies: the steps of the loop over the lanes on one side, the components of
  the constant on the other.

  Proved here for functions of one component of each argument, and for `reduce`.
-/

namespace BatchShader.Builtin

/-- Argument and result registers that fit a signature, for a batch of `rows` rows. -/
structure Fits (s : Signature) (rows : Nat) (args : List Register) (out : Register) : Prop where
  params : args.map Register.type = s.params
  result : out.type = s.result
  args_wellFormed : ∀ x ∈ args, x.WellFormed
  args_rows : ∀ x ∈ args, x.rows = rows
  out_wellFormed : out.WellFormed
  out_rows : out.rows = rows

/-- The overload runs on registers that fit, writes live rows only, and there writes the value that
its constant form gives on the row. -/
def SlotsAgree (b : Builtin) : Prop :=
  ∀ (inv : Invocation) (args : List Register) (out : Register), inv.chain.Closed →
    Fits b.signature inv.chain.rows args out →
    ∃ out', (b.execute inv args).run out = .ok () out' ∧ Register.Kept inv.chain out out' ∧
      ∀ r ∈ inv.chain.visited, ∃ vs v, args.mapM (·.rowValue? r) = some vs ∧
        b.evaluate vs = .ok (some v) ∧ out'.rowValue? r = some v

/-! ## Checks -/

theorem forall_mem_zip_eq_iff {α : Type} {l l' : List α} (h : l'.length = l.length) :
    (∀ p ∈ l.zip l', p.1 = p.2) ↔ l' = l := by
  induction l generalizing l' with
  | nil => simp [List.length_eq_zero_iff.1 h]
  | cons a l ih =>
    cases l' with
    | nil => cases h
    | cons b l' =>
      rw [List.zip_cons_cons, List.forall_mem_cons, ih (Nat.succ.inj h), List.cons.injEq,
        eq_comm (a := b)]

theorem checkTypes_eq_ok {s : Signature} {found : List ShaderType} {u : Unit} :
    checkTypes s found = .ok u ↔ found = s.params := by
  rw [checkTypes, Outcome.check_eq_ok, not_not]
  constructor
  · rintro ⟨hlen, h⟩
    split at h
    · cases h
    · next hfind =>
      rw [List.find?_eq_none] at hfind
      exact (forall_mem_zip_eq_iff hlen).1 fun p hp => by simpa using hfind p hp
  · rintro rfl
    refine ⟨rfl, ?_⟩
    rw [List.find?_eq_none.2 fun p hp => by simpa using (forall_mem_zip_eq_iff rfl).2 rfl p hp]

theorem checkCall_eq_ok {b : Builtin} {inv : Invocation} {args : List Register} {out : Register}
    {u : Unit} :
    b.checkCall inv args out = .ok u ↔ args.map Register.type = b.signature.params ∧
      out.type = b.signature.result ∧ ∀ x ∈ args ++ [out], x.rows = inv.chain.rows := by
  unfold checkCall
  rw [Outcome.bind_eq_ok]
  constructor
  · rintro ⟨_, htypes, h⟩
    obtain ⟨hresult, h⟩ := Outcome.check_eq_ok.1 h
    refine ⟨checkTypes_eq_ok.1 htypes, not_not.1 hresult, ?_⟩
    split at h
    · cases h
    · next hfind => exact fun x hx => by simpa using List.find?_eq_none.1 hfind x hx
  · rintro ⟨htypes, hresult, hrows⟩
    refine ⟨(), checkTypes_eq_ok.2 htypes, Outcome.check_eq_ok.2 ⟨not_not.2 hresult, ?_⟩⟩
    rw [List.find?_eq_none.2 fun x hx => by simpa using hrows x hx]

theorem Fits.checkCall {b : Builtin} {inv : Invocation} {args : List Register} {out : Register}
    (h : Fits b.signature inv.chain.rows args out) : b.checkCall inv args out = .ok () := by
  refine checkCall_eq_ok.2 ⟨h.params, h.result, fun x hx => ?_⟩
  rcases List.mem_append.1 hx with hx | hx
  · exact h.args_rows x hx
  · rw [List.mem_singleton.1 hx]
    exact h.out_rows

theorem fits_of_checkCall {b : Builtin} {inv : Invocation} {args : List Register} {out : Register}
    (hargs : ∀ x ∈ args, x.WellFormed) (hout : out.WellFormed)
    (h : b.checkCall inv args out = .ok ()) : Fits b.signature inv.chain.rows args out := by
  obtain ⟨hparams, hresult, hrows⟩ := checkCall_eq_ok.1 h
  exact ⟨hparams, hresult, hargs, fun x hx => hrows x (List.mem_append_left _ hx), hout,
    hrows out (List.mem_append_right _ List.mem_cons_self)⟩

/-- A call that does not fit fails before anything is written. -/
theorem execute_of_check_error {b : Builtin} {inv : Invocation} {args : List Register}
    {out : Register} {f : Failure} {run : RuntimeBody} (hrun : b.body.runtime = .implemented run)
    (h : b.checkCall inv args out = .error f) : (b.execute inv args).run out = .error f out := by
  unfold execute
  rw [hrun]
  refine Stateful.run_bind_eq_error.2 (.inr ⟨out, out, rfl, ?_⟩)
  exact Stateful.run_bind_eq_error.2 (.inl (Stateful.run_ofExcept_eq_error.2 ⟨h, rfl⟩))

/-- A call that fits does what its body does. -/
theorem execute_of_check_ok {b : Builtin} {inv : Invocation} {args : List Register}
    {out : Register} {run : RuntimeBody} (hrun : b.body.runtime = .implemented run)
    (h : b.checkCall inv args out = .ok ()) :
    (b.execute inv args).run out = (run inv args).run out := by
  unfold execute
  rw [hrun]
  change (ofExcept (b.checkCall inv args out) >>= fun _ => run inv args :
    Register.Writer Unit).run out = _
  rw [h]
  rfl

/-! ## Bodies -/

theorem pack_eq_ok {t : ShaderType} {k : Kind} {es : List k.Elem} {v : Value} :
    pack t k es = .ok v ↔ Value.new? t ⟨k, es⟩ = some v := by
  unfold pack
  cases Value.new? t ⟨k, es⟩ <;> simp [Outcome.mismatch, Outcome.fail]

theorem exists_pack {t : ShaderType} {k : Kind} (hk : t.kind? = some k) {es : List k.Elem}
    (hlen : es.length = t.components) : ∃ v, pack t k es = .ok v :=
  ⟨⟨t, ⟨k, es⟩, hk, hlen⟩, pack_eq_ok.2 (dif_pos ⟨hk, hlen⟩)⟩

/-- The values of the arguments at a row have the types of the arguments. -/
theorem map_type_of_rowValues {args : List Register} {r : Nat} {vs : List Value}
    (h : args.mapM (·.rowValue? r) = some vs) : vs.map Value.type = args.map Register.type := by
  induction args generalizing vs with
  | nil =>
    cases h
    rfl
  | cons x args ih =>
    rw [List.mapM_cons] at h
    obtain ⟨v, hv, h⟩ := Option.bind_eq_some_iff.1 h
    obtain ⟨vs', hvs', h⟩ := Option.bind_eq_some_iff.1 h
    cases h
    rw [List.map_cons, List.map_cons, ih hvs', Register.type_of_rowValue? hv]

/-- The two bodies of an implementation, compared. On registers that fit, the first one writes the
lanes step by step. At a live row the steps give the components that the second one packs. -/
theorem slotsAgree_both {s : Signature} {run : RuntimeBody} {const : ConstantBody} {k : Kind}
    (hk : s.result.kind? = some k)
    (h : ∀ (inv : Invocation) (args : List Register) (out : Register), inv.chain.Closed →
      Fits s inv.chain.rows args out → ∃ out' step, (run inv args).run out = .ok () out' ∧
        Register.Written inv.chain k step out out' ∧ ∀ r ∈ inv.chain.visited, ∃ vs es,
          args.mapM (·.rowValue? r) = some vs ∧ const vs = pack s.result k es ∧
          es.length = s.result.components ∧
          ∀ (i : Nat) (e : k.Elem), es[i]? = some e → ∀ old, step i r old = .ok e) :
    SlotsAgree ⟨s, .both run const⟩ := by
  intro inv args out hc hfits
  obtain ⟨out', step, hrun, hwritten, hrows⟩ := h inv args out hc hfits
  refine ⟨out', ?_, hwritten.kept, fun r hr => ?_⟩
  · refine Stateful.run_bind_eq_ok.2 ⟨out, out, rfl, Stateful.run_bind_eq_ok.2 ⟨(), out, ?_, hrun⟩⟩
    exact Stateful.run_ofExcept_eq_ok.2 ⟨hfits.checkCall, rfl⟩
  · obtain ⟨vs, es, hvs, hconst, hlen, hes⟩ := hrows r hr
    obtain ⟨v, hv⟩ := exists_pack hk hlen
    have hlanes : es.length = out.lanes.length := by
      rw [hfits.out_wellFormed.length_lanes, hfits.result, hlen]
    have hk' : out'.type.kind? = some k := by rw [hwritten.type_eq, hfits.result, hk]
    have hr' : r < out'.rows := by
      rw [hwritten.rows_eq, hfits.out_rows]
      exact LiveChain.lt_rows_of_mem_visited hr
    refine ⟨vs, v, hvs, ?_, ?_⟩
    · refine Outcome.bind_eq_ok.2 ⟨(), checkTypes_eq_ok.2 ?_, ?_⟩
      · rw [map_type_of_rowValues hvs, hfits.params]
      · rw [hconst, hv]
        rfl
    · rw [(hwritten.holds hr hlanes hes).rowValue? hk' hr', hwritten.type_eq, hfits.result]
      exact pack_eq_ok.1 hv

/-! ## Functions of one component of each argument -/

theorem elems_eq_ok {t : ShaderType} {k : Kind} {es : List k.Elem} {v : Value}
    (h : Value.new? t ⟨k, es⟩ = some v) : elems k v = .ok es := by
  rw [elems, (Value.type_of_new? h).2, Components.as?_self ⟨k, es⟩]

/-- A row of an argument of kind `k`, as its value and as a list of components. -/
theorem exists_rowElems {x : Register} (hx : x.WellFormed) {k : Kind} (hk : x.type.kind? = some k)
    {r : Nat} (hr : r < x.rows) :
    ∃ v es, x.rowValue? r = some v ∧ elems k v = .ok es ∧ x.Holds k r es ∧
      es.length = x.type.components := by
  obtain ⟨es, hes, hlen⟩ := hx.exists_holds hk hr
  have hv : Value.new? x.type ⟨k, es⟩ = some ⟨x.type, ⟨k, es⟩, hk, hlen⟩ := dif_pos ⟨hk, hlen⟩
  exact ⟨_, es, by rw [hes.rowValue? hk hr, hv], elems_eq_ok hv, hes, hlen⟩

/-- The columns that feed a component of the result, and the constants of a row: a function of one
element of each finds the same elements in both. -/
theorem exists_columnsOf {ks : List Kind} {args : List Register} {n i : Nat}
    (hks : args.map (·.type.kind?) = ks.map some) (hwf : ∀ x ∈ args, x.WellFormed)
    (hrows : ∀ x ∈ args, x.rows = n)
    (hi : ∀ x ∈ args, sourceIndex i x.type.components < x.type.components) :
    ∃ columns, columnsOf (sourceLane · · i) ks args = .ok columns ∧
      ∀ r < n, ∃ vs consts, args.mapM (·.rowValue? r) = some vs ∧
        columnsOf (fun v k => return (← elems k v).toArray) ks vs = .ok consts ∧
        ∀ {k : Kind} (f : ElemFun k ks), ∃ y, f.applyAt (fun _ => r) ks columns = .ok y ∧
          f.applyAt (sourceIndex i) ks consts = .ok y := by
  induction ks generalizing args with
  | nil =>
    obtain rfl : args = [] := by simpa using hks
    exact ⟨(), rfl, fun r _ => ⟨[], (), rfl, rfl, fun f => ⟨f, rfl, rfl⟩⟩⟩
  | cons k ks ih =>
    cases args with
    | nil => cases hks
    | cons x args =>
      rw [List.map_cons, List.map_cons, List.cons.injEq] at hks
      rw [List.forall_mem_cons] at hwf hrows hi
      obtain ⟨column, hcolumn, -⟩ := hwf.1.exists_lane hks.1 hi.1
      obtain ⟨columns, hcolumns, hrest⟩ := ih hks.2 hwf.2 hrows.2 hi.2
      refine ⟨(column, columns), ?_, fun r hr => ?_⟩
      · rw [columnsOf, sourceLane, hcolumn, Outcome.ok_bind, hcolumns]
        rfl
      · obtain ⟨v, es, hv, hes, hholds, hlen⟩ := exists_rowElems hwf.1 hks.1 (hrows.1 ▸ hr)
        obtain ⟨vs, consts, hvs, hconsts, hf⟩ := hrest r hr
        refine ⟨v :: vs, (es.toArray, consts), ?_, ?_, fun f => ?_⟩
        · rw [List.mapM_cons, hv, hvs]
          rfl
        · rw [columnsOf, hes, Outcome.ok_bind, hconsts]
          rfl
        · have hlt : sourceIndex i x.type.components < es.length := by
            rw [hlen]
            exact hi.1
          have he := List.getElem?_eq_getElem hlt
          obtain ⟨column', hcolumn', hget⟩ := hholds.lane _ _ he
          obtain rfl : column = column' := Except.ok.inj (hcolumn.symm.trans hcolumn')
          obtain ⟨y, hy, hy'⟩ := hf (f es[sourceIndex i x.type.components])
          refine ⟨y, ?_, ?_⟩
          · rw [ElemFun.applyAt, rowOf, hget, Outcome.require_some, Outcome.ok_bind, hy]
          · rw [ElemFun.applyAt, rowOf, List.size_toArray, hlen, List.getElem?_toArray, he,
              Outcome.require_some, Outcome.ok_bind, hy']

/-- What a signature has to be like for a function of components of kinds `ks`, to kind `k`. -/
def ComponentwiseFits (ks : List Kind) (k : Kind) (s : Signature) : Prop :=
  s.params.map ShaderType.kind? = ks.map some ∧ s.result.kind? = some k ∧
    ∀ t ∈ s.params, t.components = 1 ∨ t.components = s.result.components

instance (ks : List Kind) (k : Kind) (s : Signature) : Decidable (ComponentwiseFits ks k s) :=
  inferInstanceAs (Decidable (_ ∧ _ ∧ _))

theorem components_pos {t : ShaderType} {k : Kind} (h : t.kind? = some k) : 0 < t.components := by
  cases t <;> first | exact Nat.succ_pos _ | cases h

theorem sourceIndex_lt {t : ShaderType} {n i : Nat} (h : t.components = 1 ∨ t.components = n)
    (hi : i < n) : sourceIndex i t.components < t.components := by
  unfold sourceIndex
  split <;> omega

section Componentwise

variable {k : Kind} {ks : List Kind} (f : ElemFun k ks) {s : Signature} {args : List Register}

/-- What a component-by-component function computes for component `i` at a row. -/
def componentStep (args : List Register) (i : Nat) : RowStep k.Elem := fun r _ =>
  columnsOf (sourceLane · · i) ks args >>= f.applyAt (fun _ => r) ks

theorem ComponentwiseFits.exists_columnsOf (hs : ComponentwiseFits ks k s) {rows : Nat}
    {out : Register} (hfits : Fits s rows args out) {i : Nat} (hi : i < s.result.components) :
    ∃ columns, columnsOf (sourceLane · · i) ks args = .ok columns ∧
      ∀ r < rows, ∃ vs consts, args.mapM (·.rowValue? r) = some vs ∧
        columnsOf (fun v k => return (← elems k v).toArray) ks vs = .ok consts ∧
        ∀ {k : Kind} (f : ElemFun k ks), ∃ y, f.applyAt (fun _ => r) ks columns = .ok y ∧
          f.applyAt (sourceIndex i) ks consts = .ok y := by
  refine Builtin.exists_columnsOf ?_ hfits.args_wellFormed hfits.args_rows fun x hx => ?_
  · rw [← hs.1, ← hfits.params, List.map_map]
    rfl
  · refine sourceIndex_lt (hs.2.2 x.type ?_) hi
    rw [← hfits.params]
    exact List.mem_map_of_mem hx

theorem exists_componentwise_written (hs : ComponentwiseFits ks k s) {inv : Invocation}
    {out : Register} (hc : inv.chain.Closed) (hfits : Fits s inv.chain.rows args out) :
    ∃ out', ((List.range s.result.components).forM fun i => do
        let columns ← ofExcept (columnsOf (sourceLane · · i) ks args)
        Register.modify k i fun out =>
          inv.map (fun row => f.applyAt (fun _ => row) ks columns) out).run out = .ok () out' ∧
      Register.Written inv.chain k (componentStep f args) out out' := by
  rw [← hfits.result]
  refine Register.exists_forM_written _ _ hfits.out_wellFormed (by rw [hfits.result, hs.2.1])
    fun i hi z old hz hold => ?_
  obtain ⟨columns, hcols, hrows⟩ := hs.exists_columnsOf hfits (hfits.result ▸ hi)
  obtain ⟨new, hnew, hwrote⟩ := Sweep.exists_wrote (s := inv.toSweep) hc
    (fun r _ => f.applyAt (fun _ => r) ks columns)
    (hold.trans hfits.out_rows) fun r hr _ => by
      obtain ⟨_, _, -, -, hy⟩ := hrows r (LiveChain.lt_rows_of_mem_visited hr)
      obtain ⟨y, hy, -⟩ := hy f
      exact ⟨y, hy⟩
  refine ⟨new, Stateful.run_bind_eq_ok.2 ⟨columns, z, ?_, Register.run_modify hz hnew⟩, ?_⟩
  · exact Stateful.run_ofExcept_eq_ok.2 ⟨hcols, rfl⟩
  · unfold componentStep
    rw [hcols]
    exact hwrote

/-- At a row, the steps give what the function gives on the constants of the row. -/
theorem exists_componentwise_row (hs : ComponentwiseFits ks k s) {rows : Nat} {out : Register}
    (hfits : Fits s rows args out) {r : Nat} (hr : r < rows) :
    ∃ vs consts es, args.mapM (·.rowValue? r) = some vs ∧
      columnsOf (fun v k => return (← elems k v).toArray) ks vs = .ok consts ∧
      ((List.range s.result.components).mapM fun i => f.applyAt (sourceIndex i) ks consts) =
        .ok es ∧
      es.length = s.result.components ∧
      ∀ (i : Nat) (e : k.Elem), es[i]? = some e → ∀ old, componentStep f args i r old = .ok e := by
  obtain ⟨columns₀, hcols₀, hrows₀⟩ := hs.exists_columnsOf hfits (components_pos hs.2.1)
  obtain ⟨vs, consts, hvs, hconsts, -⟩ := hrows₀ r hr
  -- the constants of the row serve every component
  have hvalue : ∀ i < s.result.components, ∃ y, f.applyAt (sourceIndex i) ks consts = .ok y ∧
      ∀ old, componentStep f args i r old = .ok y := by
    intro i hi
    obtain ⟨columns, hcols, hrows⟩ := hs.exists_columnsOf hfits hi
    obtain ⟨vs', consts', hvs', hconsts', hf⟩ := hrows r hr
    obtain rfl : vs = vs' := Option.some.inj (hvs.symm.trans hvs')
    obtain rfl : consts = consts' := Except.ok.inj (hconsts.symm.trans hconsts')
    obtain ⟨y, hy, hy'⟩ := hf f
    exact ⟨y, hy', fun old => by rw [componentStep, hcols, Outcome.ok_bind, hy]⟩
  obtain ⟨es, hes, hlen, hget⟩ := Outcome.exists_mapM
    (f := fun i => f.applyAt (sourceIndex i) ks consts) (l := List.range s.result.components)
    fun i hi => by
      obtain ⟨y, hy, -⟩ := hvalue i (List.mem_range.1 hi)
      exact ⟨y, hy⟩
  rw [List.length_range] at hlen
  refine ⟨vs, consts, es, hvs, hconsts, hes, hlen, fun i e he old => ?_⟩
  have hi : i < s.result.components := hlen ▸ (List.getElem?_eq_some_iff.1 he).1
  obtain ⟨y, hy, hy'⟩ := hvalue i hi
  rw [hget i i e (List.getElem?_range hi) he, Except.ok.injEq] at hy
  rw [hy', hy]

theorem checkArity_eq_ok {expected found : Nat} {u : Unit} :
    checkArity expected found = .ok u ↔ found = expected := by
  unfold checkArity
  split <;> simp [*]

/-- As many arguments as kinds. -/
theorem ComponentwiseFits.checkArity (hs : ComponentwiseFits ks k s) {n : Nat}
    (hn : n = s.params.length) : Builtin.checkArity ks.length n = .ok () := by
  have := congrArg List.length hs.1
  rw [List.length_map, List.length_map] at this
  exact checkArity_eq_ok.2 (hn.trans this)

theorem slotsAgree_componentwise (hs : ComponentwiseFits ks k s) :
    SlotsAgree ⟨s, componentwise ks f s⟩ := by
  refine slotsAgree_both hs.2.1 fun inv args out hc hfits => ?_
  have hlen : args.length = s.params.length := by rw [← hfits.params, List.length_map]
  obtain ⟨out', hrun, hwritten⟩ := exists_componentwise_written f hs hc hfits
  refine ⟨out', _, ?_, hwritten, fun r hr => ?_⟩
  · refine Stateful.run_bind_eq_ok.2 ⟨(), out, ?_, hrun⟩
    exact Stateful.run_ofExcept_eq_ok.2 ⟨hs.checkArity hlen, rfl⟩
  · obtain ⟨vs, consts, es, hvs, hconsts, hes, heslen, hsteps⟩ :=
      exists_componentwise_row f hs hfits (LiveChain.lt_rows_of_mem_visited hr)
    have hvslen : vs.length = s.params.length := by
      rw [← hfits.params, ← map_type_of_rowValues hvs, List.length_map]
    refine ⟨vs, es, hvs, ?_, heslen, hsteps⟩
    rw [hs.checkArity hvslen, Outcome.ok_bind, hconsts, Outcome.ok_bind, hes, Outcome.ok_bind]

end Componentwise

end BatchShader.Builtin
