import BatchShader.Proofs.Builtin.Standard
import BatchShader.Proofs.Interpreter.Components
import BatchShader.Proofs.Interpreter.Names
import BatchShader.Proofs.Interpreter.OneRow

/-
  An assignment of a selection does what a branch with an assignment on each side does.

  Both split the live rows in the same way, but a selection merges two registers and writes the
  result once, while the sides of a branch write to the target one after the other, and the second
  one finds what the first one did. `Ready` is what carries the argument from one side to the next:
  so far nothing has happened to the batch except that the target may have been declared and
  written. `exists_arm` takes it through one side. The rows that take the other side read nothing of
  it (`eval_agrees`), and at each row the register that is left is the one of the single write.
-/

namespace BatchShader.Interpreter

open Batch (Agrees)

variable {it : Interpreter} {b b' m mid : Batch} {c d : LiveChain} {target : String}
  {mask : Option (List UInt8)} {t : ShaderType} {lanes : List Nat} {w out R : Register}

/-! ## The target on the way -/

/-- An assignment to the target starts from the register `w`: it is there, or would be declared. But
for the target, the batch is still `b`. -/
structure Ready (b : Batch) (target : String) (mask : Option (List UInt8)) (t : ShaderType)
    (m : Batch) (w : Register) : Prop where
  sound : m.Sound
  declare : ∃ mid, (declareTarget target mask t).run m = .ok () mid ∧
    mid.store.get? target = some w ∧
    ∀ w', { mid with store := mid.store.put target w' } =
      { b with store := b.store.put target w' }

/-- A target that has been found in the batch itself. -/
theorem ready_of_declareTarget (hb : b.Sound)
    (hdeclare : (declareTarget target mask t).run b = .ok () mid)
    (hw : mid.store.get? target = some w) : Ready b target mask t b w :=
  ⟨hb, mid, hdeclare, hw, put_declareTarget hb hdeclare⟩

/-- A target that has been written. -/
theorem ready_of_put (h : ({ b with store := b.store.put target w } : Batch).Sound) :
    Ready b target mask t { b with store := b.store.put target w } w := by
  have hget : (b.store.put target w).get? target = some w := Store.get?_put_self ..
  refine ⟨h, _, (declareTarget_eq_ok h).2 (.inl ⟨?_, rfl⟩), hget, fun w' => ?_⟩
  · exact Store.contains_eq_true_iff.2 ⟨w, hget⟩
  · simp only [Store.put_put]

/-! ## One side -/

/-- At a row, the register `w'` is `w` with the value of `out` written to the lanes. -/
def WritesRow (it : Interpreter) (target : String) (lanes : List Nat) (out w w' : Register)
    (r : Nat) : Prop :=
  it.writeLanes .single target (out.atRow r) lanes (w.atRow r) = .ok (w'.atRow r)

/-- One side of a branch assigns what the arm of the selection merges into its result, to the rows
that take it. Without such rows nothing happens. -/
theorem exists_arm (hit : it.Catalogued) (hb : b.Sound) (hd : b.Runs d) (hmd : m.Runs d)
    (hagrees : b.Agrees d m) (hready : Ready b target mask t m w) (hout : out.WellFormed)
    (hrows : out.rows = b.rows) (ht : out.type = t) {dst value : Register}
    (hlanes : targetLanes target mask dst value = .ok lanes) (hw : w.type = dst.type)
    (hvalue : value.type = t) {e : Expr} (h : it.selectArm b d e out = .ok R) :
    ∃ m' w', (it.execBlock d [.assign target mask e]).run m = .ok () m' ∧
      Ready b target mask t m' w' ∧ Register.Kept d w w' ∧
      (∀ r ∈ d.visited, WritesRow it target lanes R w w' r) ∧
      (d.isEmpty = true ∧ m' = m ∧ w' = w ∨ m' = { b with store := b.store.put target w' }) := by
  have hclosed := hd.canonical.closed
  obtain ⟨hempty, -⟩ | ⟨hlive, value₁, hvalue₁, hmerge⟩ := selectArm_eq_ok.1 h
  · refine ⟨m, w, execBlock_of_isEmpty hempty _, hready, .refl d w, fun r hr => ?_,
      .inl ⟨hempty, rfl, rfl⟩⟩
    rw [hd.canonical.isEmpty_iff.1 hempty] at hr
    cases hr
  -- the expression has the same value at the rows of this side, whatever the other side has done
  obtain ⟨value₂, hvalue₂, hsame⟩ := eval_agrees hit hb hready.sound hd hmd hagrees e hvalue₁
  obtain ⟨hwf₁, hrows₁⟩ := eval_wellFormed hit hb hd e hvalue₁
  have htype₂ : value₂.type = t := by
    have htype := congrArg Register.type hsame
    exact htype.trans ((mergeArm_eq_ok.1 hmerge).1.trans ht)
  have hspans₂ : value₂.Spans d.rows := by
    obtain ⟨hwf₂, hrows₂⟩ := eval_wellFormed hit hready.sound hmd e hvalue₂
    exact ⟨hwf₂, hrows₂.trans hmd.rows_eq.symm⟩
  obtain ⟨mid, hdeclare, hget, hput⟩ := hready.declare
  have hmid := (frame_declareTarget (c := d) hready.sound (.ok _ hdeclare)).1
  have hspansw : w.Spans d.rows := by
    rw [hmd.rows_eq, ← hmid.rows_eq]
    exact hmid.sound.wellFormed target w hget
  have hlanes₂ := (targetLanes_congr hw (htype₂.trans hvalue.symm)).trans hlanes
  obtain ⟨hlength, -, hbound⟩ := targetLanes_fit hlanes₂
  obtain ⟨w', hwrite⟩ := exists_writeLanes it target hclosed hspans₂ hspansw hlength hbound
  have hassign : (it.assign d target mask value₂).run m =
      .ok () { b with store := b.store.put target w' } := by
    rw [← htype₂] at hdeclare
    exact assign_eq_ok.2 ⟨mid, w, lanes, w', hdeclare, hget, hlanes₂, hwrite, (hput w').symm⟩
  have hblock : (it.execBlock d [.assign target mask e]).run m =
      .ok () { b with store := b.store.put target w' } :=
    (execBlock_cons_eq_ok hlive).2 ⟨d, _, execStmt_assign_eq_ok.2 ⟨value₂, hvalue₂, hassign, rfl⟩,
      execBlock_nil_eq_ok.2 rfl⟩
  have hsound := (frame_execBlock hready.sound hmd _ (.ok _ hblock)).sound
  refine ⟨_, w', hblock, ready_of_put hsound, kept_writeLanes hclosed hwrite, fun r hr => ?_,
    .inr rfl⟩
  -- both the result of the selection and the value of this side are the value of the arm
  have hcopied := mergeArm_copies hclosed hwf₁ hout (hrows₁.trans hrows.symm) hmerge
  have hrow : R.atRow r = value₂.atRow r :=
    (Register.restrict_eq_restrict_iff.1 (hcopied.trans hsame.symm)).2 r hr
  rw [WritesRow, hrow]
  exact writeLanes_atRow hclosed hr hwrite

/-! ## Both sides -/

/-- The register that both sides leave is the one that a single write of the selection leaves. -/
theorem eq_of_writesRow (hc : c.Closed) {p : Nat → Bool} (hlimit : c.rows ≤ maxBatchRows)
    {dst w₁ w₂ written : Register} (hdst : dst.WellFormed)
    (hwrite : it.writeLanes c target R lanes dst = .ok written)
    (hkept₁ : Register.Kept (c.filter p) dst w₁)
    (hkept₂ : Register.Kept (c.filter fun r => !p r) w₁ w₂)
    (hfirst : ∀ r ∈ (c.filter p).visited, WritesRow it target lanes out dst w₁ r)
    (hsecond : ∀ r ∈ (c.filter fun r => !p r).visited, WritesRow it target lanes R w₁ w₂ r)
    (hout : Register.Kept (c.filter fun r => !p r) out R) : w₂ = written := by
  have hkept := kept_writeLanes hc hwrite
  refine Register.ext_of_atRow (hkept.wellFormed hdst) ?_ fun r _ => ?_
  · rw [hkept₂.shape_eq, hkept₁.shape_eq, hkept.shape_eq]
  by_cases hr : r ∈ c.visited
  · have hrow := writeLanes_atRow hc hr hwrite
    cases hp : p r with
    | true =>
      have hyes : r ∈ (c.filter p).visited := by
        rw [LiveChain.visited_filter hlimit]
        exact List.mem_filter.2 ⟨hr, hp⟩
      have hno : r ∉ (c.filter fun r => !p r).visited := fun h =>
        LiveChain.not_mem_filter_of_mem_filter_not hlimit h hyes
      have hwritten := hfirst r hyes
      rw [WritesRow, ← hout.atRow_eq r hno, hrow] at hwritten
      rw [hkept₂.atRow_eq r hno, Except.ok.inj hwritten]
    | false =>
      have hno : r ∈ (c.filter fun r => !p r).visited := by
        rw [LiveChain.visited_filter hlimit]
        exact List.mem_filter.2 ⟨hr, by rw [hp]; rfl⟩
      have hyes := LiveChain.not_mem_filter_of_mem_filter_not hlimit hno
      have hwritten := hsecond r hno
      rw [WritesRow, hkept₁.atRow_eq r hyes, hrow] at hwritten
      exact (Except.ok.inj hwritten).symm
  · have hfilter : ∀ q : Nat → Bool, r ∉ (c.filter q).visited := fun q h =>
      hr (LiveChain.mem_of_mem_filter hlimit r h)
    rw [hkept₂.atRow_eq r (hfilter _), hkept₁.atRow_eq r (hfilter _), hkept.atRow_eq r hr]

/-- Under a chain with a live row, a branch with an assignment on each side does what the assignment
of the selection does. -/
theorem execStmt_branch_of_select (hit : it.Catalogued) (hb : b.Sound) (hc : b.Runs c)
    (hlive : c.isEmpty = false) {cond yes no : Expr} {c' : LiveChain}
    (h : (it.execStmt c (.assign target mask (.select cond yes no t))).run b = .ok c' b') :
    (it.execStmt c (.branch cond [.assign target mask yes] [.assign target mask no])).run b =
      .ok c' b' := by
  have hlimit := hc.canonical.limit
  obtain ⟨R, hR, hassign, rfl⟩ := execStmt_assign_eq_ok.1 h
  obtain ⟨choice, taken, notTaken, out, hcond, hsplit, hyes, hno⟩ := eval_select_eq_ok.1 hR
  obtain ⟨mid, dst, lanes, written, hdeclare, hdst, hlanes, hwrite, rfl⟩ := assign_eq_ok.1 hassign
  obtain ⟨p, rfl, rfl⟩ : ∃ p, taken = c'.filter p ∧ notTaken = c'.filter fun r => !p r := by
    obtain ⟨-, column, -, -, htaken, hnotTaken⟩ := splitOn_eq_ok hsplit
    exact ⟨_, htaken, hnotTaken⟩
  have htype : R.type = t := type_of_eval hit hb hc hR
  have hdstwf := ((frame_declareTarget (c := c') hb (.ok _ hdeclare)).1.sound.wellFormed
    target dst hdst).1
  rw [htype] at hdeclare
  -- the rows that take the first side
  obtain ⟨m₁, w₁, hblock₁, hready₁, hkept₁, hrows₁, hdone₁⟩ := exists_arm hit hb (hc.filter p)
    (hc.filter p) (.refl _ b) (ready_of_declareTarget hb hdeclare hdst)
    (Register.zeroed_wellFormed t b.rows) rfl rfl hlanes rfl htype hyes
  -- the other rows find what they read as it was
  have hframe := frame_execBlock hb (hc.filter p) _ (.ok _ hblock₁)
  have hagrees : b.Agrees (c'.filter fun r => !p r) m₁ :=
    hframe.agrees fun r => LiveChain.not_mem_filter_of_mem_filter_not hlimit
  have houtkept := kept_selectArm (hc.filter p).canonical.closed hyes
  obtain ⟨houtwf, houtrows⟩ := wellFormed_of_kept_zeroed houtkept
  obtain ⟨m₂, w₂, hblock₂, -, hkept₂, hrows₂, hdone₂⟩ := exists_arm hit hb (hc.filter _)
    (runs_otherSide hb hc hblock₁).2 hagrees hready₁ houtwf houtrows houtkept.type_eq hlanes
    hkept₁.type_eq htype hno
  obtain rfl : w₂ = written := eq_of_writesRow hc.canonical.closed hlimit hdstwf hwrite hkept₁
    hkept₂ hrows₁ hrows₂ (kept_selectArm (hc.filter _).canonical.closed hno)
  rw [put_declareTarget hb hdeclare]
  have hlast : m₂ = { b with store := b.store.put target w₂ } := by
    obtain ⟨hempty₂, rfl, rfl⟩ | hdone₂ := hdone₂
    · obtain ⟨hempty₁, -, -⟩ | hdone₁ := hdone₁
      · -- one of the sides has a row
        rw [(hc.filter _).canonical.isEmpty_iff, LiveChain.visited_filter hlimit,
          List.filter_eq_nil_iff] at hempty₁ hempty₂
        obtain ⟨r, hr⟩ := hc.canonical.isEmpty_eq_false_iff.1 hlive
        have hyes := hempty₁ r hr
        have hno := hempty₂ r hr
        simp_all
      · exact hdone₁
    · exact hdone₂
  subst hlast
  refine execStmt_branch_eq_ok.2 ⟨choice, _, _, m₁, hcond, hsplit, hblock₁, hblock₂, ?_⟩
  exact (hc.of_discarded_eq rfl rfl).remaining_eq.symm

/-! ## Runs -/

/-- Without constant folding, a shader that assigns a selection to a variable can be replaced by one
that branches on the condition and assigns on each side: if the first one succeeds, the second one
does and leaves the same batch. The arms may read the variable, and the first side may declare
it. -/
theorem run_branch_of_select {registry : Registry Implementation}
    (hregistry : Builtin.standard = .ok registry) {config : Config}
    (hfold : config.foldConstants = false) (stage : Stage) (cond yes no : Expr) (t : ShaderType)
    (x : String) (mask : Option (List UInt8)) (hb : b.Reachable)
    (h : ((Interpreter.mk registry config).run
      ⟨stage, [.assign x mask (.select cond yes no t)]⟩).run b = .ok () b') :
    ((Interpreter.mk registry config).run
      ⟨stage, [.branch cond [.assign x mask yes] [.assign x mask no]]⟩).run b = .ok () b' := by
  have hit : (Interpreter.mk registry config).Catalogued := catalogued_of_standard hregistry config
  have hsound := hb.sound
  have hbody : ∀ shader, (Interpreter.mk registry config).bodyOf shader = .ok shader.body := by
    intro shader
    exact if_neg (by rw [hfold]; exact Bool.false_ne_true)
  obtain ⟨hrows, body, hselect, h⟩ := run_eq_ok.1 h
  rw [hbody] at hselect
  cases hselect
  refine run_eq_ok.2 ⟨hrows, _, hbody _, ?_⟩
  cases hlive : b.chain.isEmpty with
  | true =>
    rw [execBlock_of_isEmpty hlive] at h ⊢
    exact h
  | false =>
    obtain ⟨c, m, hstmt, hrest⟩ := (execBlock_cons_eq_ok hlive).1 h
    have hbranch := execStmt_branch_of_select hit hsound hsound.runs hlive hstmt
    exact (execBlock_cons_eq_ok hlive).2 ⟨c, m, hbranch, hrest⟩

theorem run_branch_of_select_own :
    let config := { Config.standard with foldConstants := false }
    let it : Interpreter := ⟨Builtin.standardRegistry, config⟩
    let lit : Expr := .var "lit" .bool
    let flip : Expr := .unary .not lit .bool
    ∃ b b', b.Reachable ∧
      (it.run ⟨.fragment, [.assign "lit" none (.select lit flip lit .bool)]⟩).run b = .ok () b' ∧
      b.store.get? "lit" = some ⟨.bool, 2, [⟨.bool, #[true, false]⟩]⟩ ∧
      b'.store.get? "lit" = some ⟨.bool, 2, [⟨.bool, #[false, false]⟩]⟩ ∧
      (it.run ⟨.fragment, [.branch lit [.assign "lit" none flip] [.assign "lit" none lit]]⟩).run b =
        .ok () b' := by
  intro config it lit flip
  let mask : Register := ⟨.bool, 2, [⟨.bool, #[true, false]⟩]⟩
  let b : Batch := { Batch.ofChain (.build 2 [0, 1]) with store := (Store.new 2).put "lit" mask }
  have hmask : mask.WellFormed := Register.wellFormed_conditions #[true, false]
  have hb : b.Reachable := .setInput (.new (by exact rfl : Batch.new 2 = .ok _)) hmask rfl
  obtain ⟨b', hrun, hend⟩ := Stateful.exists_run_eq_ok
    (x := it.run ⟨.fragment, [.assign "lit" none (.select lit flip lit .bool)]⟩) (s := b)
    (P := fun b' => b'.store.get? "lit" = some ⟨.bool, 2, [⟨.bool, #[false, false]⟩]⟩)
    (by decide +kernel)
  exact ⟨b, b', hb, hrun, rfl, of_decide_eq_true hend,
    run_branch_of_select Builtin.standard_eq_ok rfl .fragment lit flip lit .bool "lit" none hb hrun⟩

end BatchShader.Interpreter
