import BatchShader.Proofs.Builtin.Refusal
import BatchShader.Proofs.Interpreter.Shapes
import BatchShader.Proofs.Safety.Operation

/-
  Execution stays in range.

  On a sound batch every variable has a lane for each component and an entry for each row, and the
  live rows are rows of the batch. If each bound texture has a texel for each place, this is all
  that the evaluation of an expression relies on (`inRange_eval`), whatever types the tree is
  annotated with and whatever it calls. Statements keep a batch sound, so they stay in range one
  after the other (`inRange_execBlock`).
-/

namespace BatchShader

theorem Registry.inRange_lookup {ι : Type} (r : Registry ι) (name : String)
    (params : List ShaderType) : (r.lookup name params).InRange := by
  unfold lookup
  split
  · exact Outcome.inRange_ok _
  · exact Outcome.inRange_fail _

theorem Batch.inRange_register (b : Batch) (name : String) : (b.register name).InRange := by
  unfold register
  split
  · exact Outcome.inRange_ok _
  · exact Outcome.inRange_fail _

namespace Interpreter

open Outcome (inRange_ok inRange_fail inRange_mismatch inRange_check yields_mismatch
  yields_foldlM)

variable {it : Interpreter} {b b' : Batch} {c : LiveChain}

/-! ## Calls -/

/-- A call that is refused fails before it reads a row, and any other one succeeds. -/
theorem inRange_call (hit : it.Catalogued) (hfull : b.textures.Full) (hc : c.Closed)
    {args : List Register} (hargs : ∀ x ∈ args, x.WellFormed) (name : String) (t : ShaderType) :
    (it.call b c name args t).InRange := by
  unfold call
  refine (Registry.inRange_lookup _ _ _).bind fun o ho => ?_
  have hcat := hit o (Registry.mem_of_lookup ho)
  have hout := Register.zeroed_wellFormed t b.rows
  have hunits : ∀ textures, some b.textures = some textures → textures.Full := by
    intro textures h
    cases h
    exact hfull
  dsimp only
  by_cases hrefused : Builtin.Refused o ⟨it.sweep c, some b.textures⟩ args (.zeroed t b.rows)
  · obtain ⟨e, hrun⟩ := Builtin.execute_refused hcat hargs hout hrefused
    rw [hrun]
    exact inRange_fail e
  · obtain ⟨out, hrun⟩ := Builtin.exists_execute hcat hc hunits hargs hout hrefused
    rw [hrun]
    exact inRange_ok out

/-! ## Selections -/

/-- The condition has an entry for each live row. -/
theorem inRange_splitOn {cond : Register} (hcond : cond.Spans c.rows) :
    (splitOn c cond).InRange := by
  unfold splitOn
  refine inRange_check fun _ => (hcond.lane .bool 0).inRange.bind fun column hcolumn => ?_
  have hsize := (hcond.lane .bool 0).holds column hcolumn
  have hlive : ∀ r ∈ c.visited, r < column.size := by
    intro r hr
    rw [hsize]
    exact LiveChain.lt_rows_of_mem_visited hr
  unfold LiveChain.split
  rw [if_pos (List.all_eq_true.2 fun r hr => decide_eq_true (hlive r hr))]
  exact inRange_ok _

theorem inRange_mergeArm (hc : c.Closed) {value out : Register} (hvalue : value.Spans c.rows)
    (hout : out.Spans c.rows) : (it.mergeArm c value out).InRange := by
  unfold mergeArm
  refine inRange_check fun _ => ?_
  have hlanes : ∀ p ∈ value.lanes.zipIdx, p.1.column.size = c.rows := by
    intro p hp
    exact hvalue.size_of_mem (List.fst_mem_of_mem_zipIdx hp)
  exact (Sweep.yields_convertAll (s := it.sweep c) hc hout hlanes).inRange

theorem inRange_selectArm (hc : c.Closed) {e : Expr} (he : (it.eval b c e).InRange)
    (hvalue : ∀ value, it.eval b c e = .ok value → value.Spans c.rows) {out : Register}
    (hout : out.Spans c.rows) : (it.selectArm b c e out).InRange := by
  unfold selectArm
  split
  · exact inRange_ok out
  · exact he.bind fun value h => inRange_mergeArm hc (hvalue value h) hout

/-! ## Expressions -/

section Expressions

variable (hit : it.Catalogued) (hb : b.Sound)

include hit hb

/-- An evaluated expression has an entry for each row of the chain. -/
theorem spans_eval (hc : b.Runs c) {e : Expr} {R : Register} (h : it.eval b c e = .ok R) :
    R.Spans c.rows := by
  rw [hc.rows_eq]
  exact eval_wellFormed hit hb hc e h

theorem spans_evalAll (hc : b.Runs c) {es : List Expr} {Rs : List Register}
    (h : it.evalAll b c es = .ok Rs) : ∀ R ∈ Rs, R.Spans c.rows := by
  rw [hc.rows_eq]
  exact evalAll_wellFormed hit hb hc es h

end Expressions

mutual

/-- The evaluation of an expression stays in range, whatever the annotations are. -/
theorem inRange_eval (hit : it.Catalogued) (hb : b.Sound) (hfull : b.textures.Full)
    {c : LiveChain} (hc : b.Runs c) (e : Expr) : (it.eval b c e).InRange := by
  have hclosed := hc.canonical.closed
  match e with
  | .const v =>
    rw [eval]
    exact inRange_ok _
  | .var x t =>
    rw [eval]
    refine (b.inRange_register x).bind fun R _ => ?_
    exact inRange_check fun _ => inRange_ok R
  | .call name args t =>
    rw [eval]
    refine (inRange_evalAll hit hb hfull hc args).bind fun Rs hRs => ?_
    have hspans := spans_evalAll hit hb hc hRs
    exact inRange_call hit hfull hclosed (fun R hR => (hspans R hR).1) name t
  | .unary op x t =>
    rw [eval]
    refine (inRange_eval hit hb hfull hc x).bind fun X hX => ?_
    have hspans := spans_eval hit hb hc hX
    exact (Sweep.yields_unary (s := it.sweep c) hclosed hspans op t).inRange
  | .binary op l r t =>
    rw [eval]
    refine (inRange_eval hit hb hfull hc l).bind fun X hX => ?_
    refine (inRange_eval hit hb hfull hc r).bind fun Y hY => ?_
    have hleft := spans_eval hit hb hc hX
    have hright := spans_eval hit hb hc hY
    exact (Sweep.yields_binary (s := it.sweep c) hclosed hleft hright op t).inRange
  | .select cond yes no t =>
    rw [eval_select]
    refine (inRange_eval hit hb hfull hc cond).bind fun value hvalue => ?_
    refine (inRange_splitOn (spans_eval hit hb hc hvalue)).bind fun (taken, notTaken) hsplit => ?_
    obtain ⟨-, column, -, -, rfl, rfl⟩ := splitOn_eq_ok hsplit
    -- each arm is evaluated under its part of the chain, on as many rows
    have harm : ∀ (keep : Nat → Bool) (e : Expr), (it.eval b (c.filter keep) e).InRange →
        ∀ {out : Register}, out.Spans b.rows →
          (it.selectArm b (c.filter keep) e out).InRange := by
      intro keep e he out hout
      have hruns := hc.filter keep
      rw [← hruns.rows_eq] at hout
      exact inRange_selectArm hruns.canonical.closed he
        (fun _ h => spans_eval hit hb hruns h) hout
    have hzeroed := Register.spans_zeroed t b.rows
    refine (harm _ yes (inRange_eval hit hb hfull (hc.filter _) yes) hzeroed).bind
      fun out hout => ?_
    have hkept := kept_selectArm (hc.filter _).canonical.closed hout
    exact harm _ no (inRange_eval hit hb hfull (hc.filter _) no) (hzeroed.kept hkept)
  | .swizzle base indices t =>
    rw [eval]
    refine (inRange_eval hit hb hfull hc base).bind fun X hX => ?_
    have hspans := spans_eval hit hb hc hX
    exact (Sweep.yields_swizzle (s := it.sweep c) hclosed hspans indices t).inRange
  | .construct t args =>
    rw [eval]
    refine (inRange_evalAll hit hb hfull hc args).bind fun Rs hRs => ?_
    have hspans := spans_evalAll hit hb hc hRs
    exact (Sweep.yields_construct (s := it.sweep c) hclosed hspans t).inRange

theorem inRange_evalAll (hit : it.Catalogued) (hb : b.Sound) (hfull : b.textures.Full)
    {c : LiveChain} (hc : b.Runs c) (es : List Expr) : (it.evalAll b c es).InRange := by
  match es with
  | [] =>
    rw [evalAll]
    exact inRange_ok []
  | e :: es =>
    rw [evalAll]
    refine (inRange_eval hit hb hfull hc e).bind fun R _ => ?_
    exact (inRange_evalAll hit hb hfull hc es).bind fun Rs _ => inRange_ok (R :: Rs)

end

/-! ## Assignments -/

theorem inRange_declareTarget (hb : b.Sound) (target : String) (mask : Option (List UInt8))
    (t : ShaderType) : Stateful.InRange (declareTarget target mask t) b := by
  intro b' h
  obtain ⟨-, -, hunknown, -⟩ := (declareTarget_eq_error hb).1 h
  cases hunknown

theorem inRange_targetLanes (target : String) (mask : Option (List UInt8))
    (dst value : Register) : (targetLanes target mask dst value).InRange := by
  cases mask with
  | none => exact inRange_check fun _ => inRange_ok _
  | some indices =>
    refine inRange_check fun _ => ?_
    split
    · exact inRange_mismatch _
    · exact inRange_ok _

theorem inRange_writeLanes (hc : c.Closed) (target : String) {value dst : Register}
    (hvalue : value.Spans c.rows) (hdst : dst.Spans c.rows) (lanes : List Nat) :
    (it.writeLanes c target value lanes dst).InRange := by
  have hwrites : (it.writeLanes c target value lanes dst).Yields (·.Spans c.rows) := by
    refine yields_foldlM (fun p _ dst hdst => ?_) hdst
    dsimp only
    split
    · next src _ hsrc _ =>
      have hsize := hvalue.size_of_mem (List.mem_of_getElem? hsrc)
      exact Sweep.yields_convertInto (s := it.sweep c) hc hdst hsize p.1
    · exact yields_mismatch _
  exact hwrites.inRange

theorem inRange_assign (hb : b.Sound) (hc : b.Runs c) (target : String)
    (mask : Option (List UInt8)) {value : Register} (hvalue : value.Spans c.rows) :
    Stateful.InRange (it.assign c target mask value) b := by
  unfold assign
  refine (inRange_declareTarget hb target mask value.type).bind fun _ mid hmid => .get_bind ?_
  obtain ⟨hframe, -⟩ := frame_declareTarget (c := c) hb (.ok _ hmid)
  refine .ofExcept_bind (mid.inRange_register target) fun dst hdst => ?_
  have hspans : dst.Spans c.rows := by
    rw [hc.rows_eq, ← hframe.rows_eq]
    exact hframe.sound.wellFormed target dst (Batch.register_eq_ok.1 hdst)
  refine .ofExcept_bind (inRange_targetLanes target mask dst value) fun lanes _ => ?_
  have hclosed := hc.canonical.closed
  exact .ofExcept_bind (inRange_writeLanes hclosed target hvalue hspans lanes) fun _ _ =>
    Stateful.inRange_set _ _

/-! ## Statements -/

mutual

/-- A statement stays in range under a chain of rows that still run. -/
theorem inRange_execStmt (hit : it.Catalogued) {b : Batch} (hb : b.Sound)
    (hfull : b.textures.Full) {c : LiveChain} (hc : b.Runs c) (s : Stmt) :
    Stateful.InRange (it.execStmt c s) b := by
  match s with
  | .assign target mask e =>
    rw [execStmt]
    refine .get_bind (.ofExcept_bind (inRange_eval hit hb hfull hc e) fun value hvalue => ?_)
    have hspans := spans_eval hit hb hc hvalue
    exact (inRange_assign hb hc target mask hspans).bind fun _ _ _ => Stateful.inRange_pure _ _
  | .branch cond yes no =>
    rw [execStmt]
    refine .get_bind (.ofExcept_bind (inRange_eval hit hb hfull hc cond) fun value hvalue => ?_)
    have hspans := spans_eval hit hb hc hvalue
    refine .ofExcept_bind (inRange_splitOn hspans) fun (taken, notTaken) hsplit => ?_
    obtain ⟨-, column, -, -, rfl, rfl⟩ := splitOn_eq_ok hsplit
    refine (inRange_execBlock hit hb hfull (hc.filter _) yes).bind fun _ mid hyes => ?_
    -- the other side starts from the batch that the first side leaves, with the same textures
    obtain ⟨hsound, hruns⟩ := runs_otherSide hb hc hyes
    have htextures := (frame_execBlock hb (hc.filter _) yes (.ok _ hyes)).textures_eq
    rw [← htextures] at hfull
    exact (inRange_execBlock hit hsound hfull hruns no).bind fun _ _ _ =>
      .get_bind (Stateful.inRange_pure _ _)
  | .discard =>
    rw [execStmt]
    have hflags : (b.discardRows c).InRange := by
      rw [hb.discardRows hc.rows_eq]
      exact inRange_ok _
    exact .get_bind (.ofExcept_bind hflags fun _ _ =>
      (Stateful.inRange_set _ _).bind fun _ _ _ => Stateful.inRange_pure _ _)

theorem inRange_execBlock (hit : it.Catalogued) {b : Batch} (hb : b.Sound)
    (hfull : b.textures.Full) {c : LiveChain} (hc : b.Runs c) (body : List Stmt) :
    Stateful.InRange (it.execBlock c body) b := by
  match body with
  | [] =>
    rw [execBlock]
    exact Stateful.inRange_pure _ _
  | s :: rest =>
    rw [execBlock]
    split
    · exact Stateful.inRange_pure _ _
    · refine (inRange_execStmt hit hb hfull hc s).bind fun c' mid hs => ?_
      obtain ⟨hsound, hruns⟩ := runs_execStmt hb hc hs
      have htextures := (frame_execStmt hb hc s (.ok _ hs)).textures_eq
      rw [← htextures] at hfull
      exact inRange_execBlock hit hsound hfull hruns rest

end

end Interpreter

end BatchShader
