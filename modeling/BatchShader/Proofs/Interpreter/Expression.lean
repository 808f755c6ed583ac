import BatchShader.Interpreter
import BatchShader.Proofs.Batch
import BatchShader.Proofs.Builtin.TextureLookup
import BatchShader.Proofs.Policy

/-
  What the register of an expression is like.

  For calls, splits of a chain and arms of a selection there are the same facts as for operators:
  what they keep (`kept_…`), what they do at one row (`…_atRow`), and that they read live rows only
  (`…_restrict`). With them, any expression has a well-formed register of the batch's length
  (`eval_wellFormed`). Settings matter to an expression only through its calls (`SameCalls`).
-/

namespace BatchShader

namespace Interpreter

variable {it : Interpreter} {b : Batch} {c : LiveChain}

/-- All overloads that can be called are of the catalogue's forms. -/
def Catalogued (it : Interpreter) : Prop :=
  ∀ o ∈ it.registry.overloads, Builtin.Catalogued o

theorem catalogued_of_standard {registry : Registry Implementation}
    (h : Builtin.standard = .ok registry) (config : Config) :
    Catalogued ⟨registry, config⟩ := fun _ => Builtin.catalogued_of_mem h

/-! ## Calls -/

theorem call_eq_ok {name : String} {args : List Register} {t : ShaderType} {R : Register} :
    it.call b c name args t = .ok R ↔
      ∃ o, it.registry.lookup name (args.map Register.type) = .ok o ∧
        (Builtin.execute o ⟨it.sweep c, some b.textures⟩ args).run (.zeroed t b.rows) =
          .ok () R := by
  unfold call
  rw [Outcome.bind_eq_ok]
  refine exists_congr fun o => and_congr_right fun _ => ?_
  dsimp only
  split
  · next h => simp [h]
  · next h => simp [h]

theorem kept_call (hit : it.Catalogued) (hc : c.Closed) {name : String} {args : List Register}
    {t : ShaderType} {R : Register} (hargs : ∀ x ∈ args, x.WellFormed)
    (h : it.call b c name args t = .ok R) : Register.Kept c (.zeroed t b.rows) R := by
  obtain ⟨o, ho, h⟩ := call_eq_ok.1 h
  have hclosed : (Invocation.mk (it.sweep c) (some b.textures)).chain.Closed := hc
  have hrow := (hit o (Registry.mem_of_lookup ho)).rowWise
  exact hrow.kept hclosed hargs (Register.zeroed_wellFormed t b.rows) h

/-- A call reads its arguments at live rows only. -/
theorem call_congr (hit : it.Catalogued) (hc : c.Closed) {name : String}
    {args args' : List Register} {t : ShaderType} {R : Register}
    (hargs : ∀ x ∈ args, x.WellFormed) (hargs' : ∀ x ∈ args', x.WellFormed)
    (hsame : args.map (·.restrict c) = args'.map (·.restrict c))
    (h : it.call b c name args t = .ok R) : it.call b c name args' t = .ok R := by
  obtain ⟨o, ho, h⟩ := call_eq_ok.1 h
  have hrow := (hit o (Registry.mem_of_lookup ho)).rowWise
  refine call_eq_ok.2 ⟨o, by rw [Builtin.types_eq_of_restrict hsame, ho], ?_⟩
  exact hrow.congr hc hargs hargs' (Register.zeroed_wellFormed t b.rows) hsame h

/-! ## Splits -/

/-- A chain is split by the truth values of the condition's rows. -/
theorem splitOn_eq_ok {cond : Register} {yes no : LiveChain}
    (h : splitOn c cond = .ok (yes, no)) :
    cond.type = .bool ∧ ∃ column, cond.lane .bool 0 = .ok column ∧
      (∀ r ∈ c.visited, r < column.size) ∧ yes = c.filter (column.getD · false) ∧
      no = c.filter fun row => !column.getD row false := by
  obtain ⟨ht, h⟩ := Outcome.check_eq_ok.1 h
  obtain ⟨column, hcolumn, h⟩ := Outcome.bind_eq_ok.1 h
  obtain ⟨hlt, hyes, hno⟩ := LiveChain.split_eq_ok h
  exact ⟨not_not.1 ht, column, hcolumn, hlt, hyes, hno⟩

theorem split_restrict (c : LiveChain) (column : Array Bool) :
    c.split (restrictColumn c false column) = c.split column := by
  have hget : ∀ r ∈ c.visited,
      (restrictColumn c false column).getD r false = column.getD r false := fun r hr => by
    rw [Array.getD_eq_getD_getElem?, Array.getD_eq_getD_getElem?,
      getElem?_restrictColumn_live column hr]
  have hsize : (restrictColumn c false column).size = column.size := by simp [restrictColumn]
  unfold LiveChain.split LiveChain.filter
  rw [hsize, List.filter_congr hget, List.filter_congr fun r hr => congrArg (!·) (hget r hr)]

theorem splitOn_restrict (c : LiveChain) (cond : Register) :
    splitOn c (cond.restrict c) = splitOn c cond := by
  unfold splitOn
  refine if_congr Iff.rfl rfl ?_
  rw [Register.lane_restrict, Outcome.map_bind]
  exact congrArg _ (funext fun column => split_restrict c column)

theorem splitOn_congr {cond cond' : Register} (h : cond'.restrict c = cond.restrict c) :
    splitOn c cond' = splitOn c cond := by
  rw [← splitOn_restrict, h, splitOn_restrict]

/-! ## Arms of a selection -/

theorem mergeArm_eq_ok {value out R : Register} :
    it.mergeArm c value out = .ok R ↔ value.type = out.type ∧
      value.lanes.zipIdx.foldlM (fun out (src, i) => (it.sweep c).convertInto src out i) out =
        .ok R := by
  unfold mergeArm
  refine (Outcome.check_eq_ok (p := value.type ≠ out.type)).trans ?_
  rw [not_not]

theorem kept_mergeArm (hc : c.Closed) {value out R : Register}
    (h : it.mergeArm c value out = .ok R) : Register.Kept c out R :=
  Sweep.kept_convertAll (s := it.sweep c) hc (mergeArm_eq_ok.1 h).2

theorem mergeArm_atRow (hc : c.Closed) {value out R : Register}
    (h : it.mergeArm c value out = .ok R) {r : Nat} (hr : r ∈ c.visited) :
    it.mergeArm .single (value.atRow r) (out.atRow r) = .ok (R.atRow r) := by
  obtain ⟨ht, h⟩ := mergeArm_eq_ok.1 h
  exact mergeArm_eq_ok.2 ⟨ht, Sweep.convertAll_atRow (s := it.sweep c) hc hr it.config.paths h⟩

theorem mergeArm_restrict (hc : c.Closed) (value out : Register) :
    it.mergeArm c (value.restrict c) out = it.mergeArm c value out := by
  unfold mergeArm
  refine if_congr Iff.rfl rfl ?_
  exact Sweep.convertAll_restrict (s := it.sweep c) hc value.lanes 0 out

theorem mergeArm_congr (hc : c.Closed) {value value' out : Register}
    (h : value'.restrict c = value.restrict c) :
    it.mergeArm c value' out = it.mergeArm c value out := by
  rw [← mergeArm_restrict hc, h, mergeArm_restrict hc]

/-- An arm is copied at live rows. -/
theorem mergeArm_copies (hc : c.Closed) {value out R : Register} (hvalue : value.WellFormed)
    (hout : out.WellFormed) (hrows : value.rows = out.rows)
    (h : it.mergeArm c value out = .ok R) : R.restrict c = value.restrict c := by
  obtain ⟨ht, h⟩ := mergeArm_eq_ok.1 h
  have hkept : Register.Kept c out R := Sweep.kept_convertAll (s := it.sweep c) hc h
  have hR := hkept.wellFormed hout
  have htype := hkept.type_eq.trans ht.symm
  refine Register.restrict_eq_restrict_iff.2
    ⟨hR.shape_eq hvalue htype (hkept.rows_eq.trans hrows.symm), fun r hr => ?_⟩
  have hkinds : ∀ (i : Nat) (src : Lane), value.lanes[i]? = some src →
      ∃ dst, out.lanes[0 + i]? = some dst ∧ dst.kind = src.kind := fun i src hsrc => by
    have hi : i < out.lanes.length := by
      rw [hout.length_lanes, ← ht, ← hvalue.length_lanes]
      exact (List.getElem?_eq_some_iff.1 hsrc).1
    refine ⟨out.lanes[i], by rw [Nat.zero_add, List.getElem?_eq_getElem], ?_⟩
    have hdst := hout.kind_lane _ (List.getElem_mem hi)
    rw [← ht, hvalue.kind_lane src (List.mem_of_getElem? hsrc), Option.some.injEq] at hdst
    exact hdst.symm
  have hcopied := (Sweep.convertAll_copies (s := it.sweep c) hc hr hkinds h).2
  have hlanes : R.lanes.map (·.atRow r) = value.lanes.map (·.atRow r) := by
    refine Register.map_eq_map_of_getElem?
      (by rw [hR.length_lanes, hvalue.length_lanes, htype]) fun i l src hl hsrc => ?_
    obtain ⟨l', hl', hrow⟩ := hcopied i src hsrc
    rw [Nat.zero_add, hl, Option.some.injEq] at hl'
    rw [hl', hrow]
  simp only [Register.atRow, htype, hlanes]

/-- An arm of a selection: nothing to do without live rows. -/
def selectArm (it : Interpreter) (b : Batch) (c : LiveChain) (e : Expr) (out : Register) :
    Outcome Register :=
  if c.isEmpty then .ok out else do it.mergeArm c (← it.eval b c e) out

theorem selectArm_eq_ok {e : Expr} {out R : Register} :
    it.selectArm b c e out = .ok R ↔ c.isEmpty = true ∧ out = R ∨
      c.isEmpty = false ∧ ∃ value, it.eval b c e = .ok value ∧ it.mergeArm c value out = .ok R := by
  unfold selectArm
  cases c.isEmpty with
  | true => simp
  | false => simp [Outcome.bind_eq_ok]

theorem kept_selectArm (hc : c.Closed) {e : Expr} {out R : Register}
    (h : it.selectArm b c e out = .ok R) : Register.Kept c out R := by
  obtain ⟨-, rfl⟩ | ⟨-, _, -, h⟩ := selectArm_eq_ok.1 h
  · exact .refl c _
  · exact kept_mergeArm hc h

theorem eval_select {cond yes no : Expr} {t : ShaderType} :
    it.eval b c (.select cond yes no t) = (do
      let (taken, notTaken) ← splitOn c (← it.eval b c cond)
      let out ← it.selectArm b taken yes (.zeroed t b.rows)
      it.selectArm b notTaken no out) := by
  rw [eval]
  refine congrArg _ (funext fun value => congrArg _ (funext fun (taken, notTaken) => ?_))
  dsimp only [selectArm]
  cases taken.isEmpty with
  | true => rfl
  | false =>
    simp only [Bool.false_eq_true, if_false, bind_assoc]
    rfl

theorem eval_select_eq_ok {cond yes no : Expr} {t : ShaderType} {R : Register} :
    it.eval b c (.select cond yes no t) = .ok R ↔ ∃ value taken notTaken out,
      it.eval b c cond = .ok value ∧ splitOn c value = .ok (taken, notTaken) ∧
        it.selectArm b taken yes (.zeroed t b.rows) = .ok out ∧
        it.selectArm b notTaken no out = .ok R := by
  rw [eval_select]
  constructor
  · intro h
    obtain ⟨value, hvalue, h⟩ := Outcome.bind_eq_ok.1 h
    obtain ⟨⟨taken, notTaken⟩, hsplit, h⟩ := Outcome.bind_eq_ok.1 h
    obtain ⟨out, hout, h⟩ := Outcome.bind_eq_ok.1 h
    exact ⟨value, taken, notTaken, out, hvalue, hsplit, hout, h⟩
  · rintro ⟨value, taken, notTaken, out, hvalue, hsplit, hout, h⟩
    rw [hvalue, Outcome.ok_bind, hsplit, Outcome.ok_bind]
    dsimp only
    rw [hout, Outcome.ok_bind, h]

/-! ## Well-formed results -/

theorem eval_var_eq_ok {x : String} {t : ShaderType} {R : Register} :
    it.eval b c (.var x t) = .ok R ↔ b.store.get? x = some R ∧ R.type = t := by
  rw [eval, Outcome.bind_eq_ok]
  constructor
  · rintro ⟨R', hR', h⟩
    obtain ⟨ht, h⟩ := Outcome.check_eq_ok.1 h
    rw [← Except.ok.inj h]
    exact ⟨Batch.register_eq_ok.1 hR', not_not.1 ht⟩
  · rintro ⟨hR, ht⟩
    exact ⟨R, Batch.register_eq_ok.2 hR, Outcome.check_eq_ok.2 ⟨not_not.2 ht, rfl⟩⟩

theorem wellFormed_of_kept_zeroed {t : ShaderType} {n : Nat} {R : Register}
    (h : Register.Kept c (.zeroed t n) R) : R.WellFormed ∧ R.rows = n :=
  ⟨h.wellFormed (Register.zeroed_wellFormed t n), h.rows_eq⟩

theorem wellFormed_of_kept_blank (hrows : c.rows = b.rows) {t : ShaderType} {R : Register}
    (h : Register.Kept c ((it.sweep c).blank t) R) : R.WellFormed ∧ R.rows = b.rows := by
  rw [← hrows]
  exact wellFormed_of_kept_zeroed h

mutual

/-- The register of an expression is well-formed, and as long as the batch. -/
theorem eval_wellFormed (hit : it.Catalogued) (hb : b.Sound) {c : LiveChain} (hc : b.Runs c)
    (e : Expr) {R : Register} (h : it.eval b c e = .ok R) : R.WellFormed ∧ R.rows = b.rows := by
  have hclosed := hc.canonical.closed
  match e with
  | .const v =>
    rw [eval] at h
    rw [← Except.ok.inj h]
    exact ⟨Register.splat_wellFormed v b.rows, rfl⟩
  | .var x t => exact hb.wellFormed x R (eval_var_eq_ok.1 h).1
  | .call name args t =>
    rw [eval] at h
    obtain ⟨Rs, hRs, h⟩ := Outcome.bind_eq_ok.1 h
    have hargs := evalAll_wellFormed hit hb hc args hRs
    exact wellFormed_of_kept_zeroed (kept_call hit hclosed (fun x hx => (hargs x hx).1) h)
  | .unary op x t =>
    rw [eval] at h
    obtain ⟨_, -, h⟩ := Outcome.bind_eq_ok.1 h
    exact wellFormed_of_kept_blank hc.rows_eq (Sweep.kept_unary (s := it.sweep c) hclosed h)
  | .binary op l r t =>
    rw [eval] at h
    obtain ⟨_, -, h⟩ := Outcome.bind_eq_ok.1 h
    obtain ⟨_, -, h⟩ := Outcome.bind_eq_ok.1 h
    exact wellFormed_of_kept_blank hc.rows_eq (Sweep.kept_binary (s := it.sweep c) hclosed h)
  | .select cond yes no t =>
    obtain ⟨value, taken, notTaken, out, -, hsplit, hyes, hno⟩ := eval_select_eq_ok.1 h
    obtain ⟨-, _, -, -, rfl, rfl⟩ := splitOn_eq_ok hsplit
    have hkept := kept_selectArm (hc.filter _).canonical.closed hyes
    obtain ⟨hwf, hrows⟩ := wellFormed_of_kept_zeroed hkept
    have hkept' := kept_selectArm (hc.filter _).canonical.closed hno
    exact ⟨hkept'.wellFormed hwf, hkept'.rows_eq.trans hrows⟩
  | .swizzle base indices t =>
    rw [eval] at h
    obtain ⟨_, -, h⟩ := Outcome.bind_eq_ok.1 h
    exact wellFormed_of_kept_blank hc.rows_eq (Sweep.kept_swizzle (s := it.sweep c) hclosed h)
  | .construct t args =>
    rw [eval] at h
    obtain ⟨_, -, h⟩ := Outcome.bind_eq_ok.1 h
    exact wellFormed_of_kept_blank hc.rows_eq (Sweep.kept_construct (s := it.sweep c) hclosed h)

theorem evalAll_wellFormed (hit : it.Catalogued) (hb : b.Sound) {c : LiveChain} (hc : b.Runs c)
    (es : List Expr) {Rs : List Register} (h : it.evalAll b c es = .ok Rs) :
    ∀ R ∈ Rs, R.WellFormed ∧ R.rows = b.rows := by
  match es with
  | [] =>
    rw [evalAll] at h
    rw [← Except.ok.inj h]
    exact fun R hR => absurd hR List.not_mem_nil
  | e :: es =>
    rw [evalAll] at h
    obtain ⟨R, hR, h⟩ := Outcome.bind_eq_ok.1 h
    obtain ⟨Rs', hRs', h⟩ := Outcome.bind_eq_ok.1 h
    rw [← Except.ok.inj h, List.forall_mem_cons]
    exact ⟨eval_wellFormed hit hb hc e hR, evalAll_wellFormed hit hb hc es hRs'⟩

end

/-! ## Settings -/

/-- Calls do the same in both interpreters. Whatever else an expression does is settled by the
chain, under any settings. -/
def SameCalls (it it' : Interpreter) : Prop :=
  ∀ b c name args t, it'.call b c name args t = it.call b c name args t

theorem mergeArm_paths (it it' : Interpreter) (c : LiveChain) (value out : Register) :
    it'.mergeArm c value out = it.mergeArm c value out := by
  have hs : (it'.sweep c).chain = (it.sweep c).chain := rfl
  simp only [mergeArm, Sweep.convertInto_paths hs]

namespace SameCalls

variable {it' : Interpreter}

mutual

theorem eval_eq (h : SameCalls it it') (b : Batch) (c : LiveChain) (e : Expr) :
    it'.eval b c e = it.eval b c e := by
  have hs : (it'.sweep c).chain = (it.sweep c).chain := rfl
  match e with
  | .const v => rw [eval, eval]
  | .var x t => rw [eval, eval]
  | .call name args t =>
    rw [eval, eval, h.evalAll_eq b c args]
    exact congrArg _ (funext fun Rs => h b c name Rs t)
  | .unary op x t =>
    rw [eval, eval, h.eval_eq b c x]
    simp only [Sweep.unary_paths hs]
  | .binary op x y t =>
    rw [eval, eval, h.eval_eq b c x, h.eval_eq b c y]
    simp only [Sweep.binary_paths hs]
  | .select cond yes no t =>
    have hyes : ∀ c, it'.eval b c yes = it.eval b c yes := fun c => h.eval_eq b c yes
    have hno : ∀ c, it'.eval b c no = it.eval b c no := fun c => h.eval_eq b c no
    rw [eval_select, eval_select, h.eval_eq b c cond]
    simp only [selectArm, hyes, hno, mergeArm_paths it it']
  | .swizzle base indices t =>
    rw [eval, eval, h.eval_eq b c base]
    simp only [Sweep.swizzle_paths hs]
  | .construct t args =>
    rw [eval, eval, h.evalAll_eq b c args]
    simp only [Sweep.construct_paths hs]

theorem evalAll_eq (h : SameCalls it it') (b : Batch) (c : LiveChain) (es : List Expr) :
    it'.evalAll b c es = it.evalAll b c es := by
  match es with
  | [] => rw [evalAll, evalAll]
  | e :: es => rw [evalAll, evalAll, h.eval_eq b c e, h.evalAll_eq b c es]

end

end SameCalls

/-- The interpreters have the same overloads and cut sweeps into the same runs. Their size limits
may differ, and one may fold. -/
structure Alike (it it' : Interpreter) : Prop where
  registry_eq : it'.registry = it.registry
  paths_eq : it'.config.paths = it.config.paths

theorem Alike.sameCalls {it' : Interpreter} (h : Alike it it') : SameCalls it it' := by
  intro b c name args t
  have hs : it'.sweep c = it.sweep c := congrArg (Sweep.mk c) h.paths_eq
  simp only [call, h.registry_eq, hs]

end Interpreter

end BatchShader
