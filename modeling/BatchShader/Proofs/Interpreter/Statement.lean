import BatchShader.Folding
import BatchShader.Proofs.Interpreter.Expression

/-
  Execution of statements.

  `frame_execBlock`: under a chain, statements change nothing but rows that the chain visits, even
  if they fail half-way. Hence the rows of a branch that is executed later are found as they were,
  and the chain that a statement hands on is what remains of its own chain (`execStmt_chain`). So
  two lists of statements do in turn what they do as one (`run_execBlock_append`).

  `run_eq_ok` says what a run is, and `Batch.Reachable` which batches there are to run on. They are
  all sound (`Batch.Reachable.sound`), whatever failed on the way.
-/

namespace BatchShader

open Stateful (Ends)

namespace Interpreter

variable {it : Interpreter} {b b' : Batch} {c c' : LiveChain}

/-! ## Steps -/

theorem execStmt_assign_eq_ok {target : String} {mask : Option (List UInt8)} {e : Expr} :
    (it.execStmt c (.assign target mask e)).run b = .ok c' b' ↔
      ∃ value, it.eval b c e = .ok value ∧ (it.assign c target mask value).run b = .ok () b' ∧
        c' = c := by
  rw [execStmt]
  constructor
  · intro h
    obtain ⟨_, _, hget, h₁⟩ := Stateful.run_bind_eq_ok.1 h
    cases hget
    obtain ⟨value, _, hrun, h₂⟩ := Stateful.run_bind_eq_ok.1 h₁
    obtain ⟨hvalue, rfl⟩ := Stateful.run_ofExcept_eq_ok.1 hrun
    obtain ⟨_, _, hassign, h₃⟩ := Stateful.run_bind_eq_ok.1 h₂
    cases h₃
    exact ⟨value, hvalue, hassign, rfl⟩
  · rintro ⟨value, hvalue, hassign, rfl⟩
    refine Stateful.run_bind_eq_ok.2 ⟨b, b, rfl, Stateful.run_bind_eq_ok.2 ⟨value, b, ?_, ?_⟩⟩
    · exact Stateful.run_ofExcept_eq_ok.2 ⟨hvalue, rfl⟩
    · exact Stateful.run_bind_eq_ok.2 ⟨(), b', hassign, rfl⟩

theorem execStmt_branch_eq_ok {cond : Expr} {yes no : List Stmt} :
    (it.execStmt c (.branch cond yes no)).run b = .ok c' b' ↔
      ∃ value taken notTaken mid, it.eval b c cond = .ok value ∧
        splitOn c value = .ok (taken, notTaken) ∧ (it.execBlock taken yes).run b = .ok () mid ∧
        (it.execBlock notTaken no).run mid = .ok () b' ∧ c' = b'.remaining c := by
  rw [execStmt]
  constructor
  · intro h
    obtain ⟨_, _, hget, h₁⟩ := Stateful.run_bind_eq_ok.1 h
    cases hget
    obtain ⟨value, _, hrun, h₂⟩ := Stateful.run_bind_eq_ok.1 h₁
    obtain ⟨hvalue, rfl⟩ := Stateful.run_ofExcept_eq_ok.1 hrun
    obtain ⟨⟨taken, notTaken⟩, _, hrun, h₃⟩ := Stateful.run_bind_eq_ok.1 h₂
    obtain ⟨hsplit, rfl⟩ := Stateful.run_ofExcept_eq_ok.1 hrun
    obtain ⟨_, mid, hyes, h₄⟩ := Stateful.run_bind_eq_ok.1 h₃
    obtain ⟨_, _, hno, h₅⟩ := Stateful.run_bind_eq_ok.1 h₄
    obtain ⟨_, _, hget, h₆⟩ := Stateful.run_bind_eq_ok.1 h₅
    cases hget
    cases h₆
    exact ⟨value, taken, notTaken, mid, hvalue, hsplit, hyes, hno, rfl⟩
  · rintro ⟨value, taken, notTaken, mid, hvalue, hsplit, hyes, hno, rfl⟩
    refine Stateful.run_bind_eq_ok.2 ⟨b, b, rfl, Stateful.run_bind_eq_ok.2 ⟨value, b, ?_, ?_⟩⟩
    · exact Stateful.run_ofExcept_eq_ok.2 ⟨hvalue, rfl⟩
    refine Stateful.run_bind_eq_ok.2 ⟨(taken, notTaken), b, ?_, ?_⟩
    · exact Stateful.run_ofExcept_eq_ok.2 ⟨hsplit, rfl⟩
    · exact Stateful.run_bind_eq_ok.2 ⟨(), mid, hyes, Stateful.run_bind_eq_ok.2 ⟨(), b', hno,
        Stateful.run_bind_eq_ok.2 ⟨b', b', rfl, rfl⟩⟩⟩

theorem run_discard (hb : b.Sound) (hrows : c.rows = b.rows) :
    (it.execStmt c .discard).run b = .ok c.cleared (b.discard c) := by
  rw [execStmt]
  refine Stateful.run_bind_eq_ok.2 ⟨b, b, rfl, Stateful.run_bind_eq_ok.2 ⟨_, b, ?_, rfl⟩⟩
  exact Stateful.run_ofExcept_eq_ok.2 ⟨hb.discardRows hrows, rfl⟩

theorem execStmt_discard_eq_ok (hb : b.Sound) (hrows : c.rows = b.rows) :
    (it.execStmt c .discard).run b = .ok c' b' ↔ c' = c.cleared ∧ b' = b.discard c := by
  rw [run_discard hb hrows]
  simp [eq_comm]

theorem execBlock_nil_eq_ok : (it.execBlock c []).run b = .ok () b' ↔ b' = b := by
  rw [execBlock]
  change EStateM.Result.ok () b = .ok () b' ↔ _
  simp [eq_comm]

/-- Without live rows nothing is executed. -/
theorem execBlock_of_isEmpty (hc : c.isEmpty = true) (body : List Stmt) :
    (it.execBlock c body).run b = .ok () b := by
  cases body with
  | nil => exact execBlock_nil_eq_ok.2 rfl
  | cons s rest =>
    rw [execBlock, if_pos hc]
    rfl

theorem execBlock_cons_eq_ok (hc : c.isEmpty = false) {s : Stmt} {rest : List Stmt} :
    (it.execBlock c (s :: rest)).run b = .ok () b' ↔ ∃ c' mid,
      (it.execStmt c s).run b = .ok c' mid ∧ (it.execBlock c' rest).run mid = .ok () b' := by
  rw [execBlock, hc, if_neg Bool.false_ne_true]
  exact Stateful.run_bind_eq_ok

/-! ## Ends -/

theorem ends_assign {target : String} {mask : Option (List UInt8)} {e : Expr}
    (h : Ends (it.execStmt c (.assign target mask e)) b b') :
    (∃ f, it.eval b c e = .error f ∧ b' = b) ∨
      ∃ value, it.eval b c e = .ok value ∧ Ends (it.assign c target mask value) b b' := by
  rw [execStmt] at h
  obtain hfails | ⟨value, hvalue, h⟩ := h.get_bind.ofExcept_bind
  · exact .inl hfails
  · exact .inr ⟨value, hvalue, h.of_bind_pure⟩

/-- A branch ends before its chain is split, or in its first side, or in its second side. -/
theorem ends_branch {cond : Expr} {yes no : List Stmt}
    (h : Ends (it.execStmt c (.branch cond yes no)) b b') :
    (∃ f, it.eval b c cond >>= splitOn c = .error f ∧ b' = b) ∨
      ∃ p : Nat → Bool,
        it.eval b c cond >>= splitOn c = .ok (c.filter p, c.filter fun row => !p row) ∧
          ((∃ f, (it.execBlock (c.filter p) yes).run b = .error f b') ∨
            ∃ mid, (it.execBlock (c.filter p) yes).run b = .ok () mid ∧
              Ends (it.execBlock (c.filter fun row => !p row) no) mid b') := by
  rw [execStmt] at h
  obtain ⟨f, hvalue, hb'⟩ | ⟨value, hvalue, h⟩ := h.get_bind.ofExcept_bind
  · exact .inl ⟨f, by rw [hvalue]; rfl, hb'⟩
  rw [hvalue, Outcome.ok_bind]
  obtain hfails | ⟨⟨taken, notTaken⟩, hsplit, h⟩ := h.ofExcept_bind
  · exact .inl hfails
  obtain ⟨-, column, -, -, rfl, rfl⟩ := splitOn_eq_ok hsplit
  refine .inr ⟨_, hsplit, ?_⟩
  obtain hfails | ⟨_, mid, hyes, h⟩ := h.bind
  · exact .inl hfails
  refine .inr ⟨mid, hyes, ?_⟩
  obtain ⟨f, hno⟩ | ⟨_, last, hno, h⟩ := h.bind
  · exact .error f hno
  · rw [h.get_bind.pure]
    exact .ok _ hno

theorem ends_discard (hb : b.Sound) (hrows : c.rows = b.rows)
    (h : Ends (it.execStmt c .discard) b b') : b' = b.discard c := by
  cases h with
  | ok c' h => exact ((execStmt_discard_eq_ok hb hrows).1 h).2
  | error f h =>
    rw [run_discard hb hrows] at h
    cases h

theorem ends_block_nil (h : Ends (it.execBlock c []) b b') : b' = b := by
  rw [execBlock] at h
  exact h.pure

/-- Statements end at once if no row is live, or in the first one, or in the others. -/
theorem ends_block_cons {s : Stmt} {rest : List Stmt}
    (h : Ends (it.execBlock c (s :: rest)) b b') :
    c.isEmpty = true ∧ b' = b ∨ c.isEmpty = false ∧
      ((∃ f, (it.execStmt c s).run b = .error f b') ∨
        ∃ c' mid, (it.execStmt c s).run b = .ok c' mid ∧ Ends (it.execBlock c' rest) mid b') := by
  rw [execBlock] at h
  split at h
  · next hempty => exact .inl ⟨hempty, h.pure⟩
  · next hempty => exact .inr ⟨Bool.eq_false_iff.2 hempty, h.bind⟩

/-! ## Assignments -/

theorem kept_writeLanes (hc : c.Closed) {target : String} {value dst R : Register}
    {lanes : List Nat} (h : it.writeLanes c target value lanes dst = .ok R) :
    Register.Kept c dst R := by
  refine Outcome.foldlM_keeps (fun p _ dst R hdst h => hdst.trans ?_) (.refl _ _) h
  dsimp only at h
  split at h
  · exact Sweep.kept_convertInto (s := it.sweep c) hc h
  · cases h

theorem writeLanes_restrict (hc : c.Closed) (target : String) (value : Register)
    (lanes : List Nat) (dst : Register) :
    it.writeLanes c target (value.restrict c) lanes dst =
      it.writeLanes c target value lanes dst := by
  refine Outcome.foldlM_congr (fun p _ dst => ?_) dst
  dsimp only
  rw [Register.getElem?_lanes_restrict]
  cases value.lanes[p.2]? with
  | none => rfl
  | some src =>
    cases dst.lanes[p.1]? with
    | none => rfl
    | some old => exact Sweep.convertInto_restrict (s := it.sweep c) hc src dst p.1

theorem assign_restrict (hc : c.Closed) (target : String) (mask : Option (List UInt8))
    (value : Register) :
    it.assign c target mask (value.restrict c) = it.assign c target mask value := by
  unfold assign
  simp only [writeLanes_restrict hc]
  rfl

/-- An assignment reads its value at live rows only. -/
theorem assign_congr (hc : c.Closed) {target : String} {mask : Option (List UInt8)}
    {value value' : Register} (h : value'.restrict c = value.restrict c) :
    it.assign c target mask value' = it.assign c target mask value := by
  rw [← assign_restrict hc, h, assign_restrict hc]

/-- The batch with a variable that an assignment declares. -/
def declared (b : Batch) (target : String) (t : ShaderType) : Batch :=
  { b with store := b.store.put target (.zeroed t b.rows) }

/-- An assignment finds its target, or declares it if it has no mask. -/
theorem declareTarget_eq_ok (hb : b.Sound) {target : String} {mask : Option (List UInt8)}
    {t : ShaderType} :
    (declareTarget target mask t).run b = .ok () b' ↔
      b.store.contains target = true ∧ b' = b ∨
        b.store.contains target = false ∧ mask = none ∧ b' = declared b target t := by
  have hinsert : b.store.insert target (.zeroed t b.rows) =
      .ok (b.store.put target (.zeroed t b.rows)) := if_pos hb.store_rows.symm
  unfold declareTarget
  constructor
  · intro h
    obtain ⟨_, _, hget, h₁⟩ := Stateful.run_bind_eq_ok.1 h
    cases hget
    cases hcontains : b.store.contains target with
    | true =>
      rw [hcontains] at h₁
      cases h₁
      exact .inl ⟨rfl, rfl⟩
    | false =>
      rw [hcontains] at h₁
      cases mask with
      | some indices => cases h₁
      | none =>
        obtain ⟨store, _, hrun, h₂⟩ := Stateful.run_bind_eq_ok.1 h₁
        obtain ⟨hstore, rfl⟩ := Stateful.run_ofExcept_eq_ok.1 hrun
        rw [hinsert] at hstore
        cases hstore
        cases h₂
        exact .inr ⟨rfl, rfl, rfl⟩
  · rintro (⟨hcontains, rfl⟩ | ⟨hcontains, rfl, rfl⟩)
    · refine Stateful.run_bind_eq_ok.2 ⟨b', b', rfl, ?_⟩
      rw [hcontains]
      rfl
    · refine Stateful.run_bind_eq_ok.2 ⟨b, b, rfl, ?_⟩
      rw [hcontains]
      refine Stateful.run_bind_eq_ok.2 ⟨_, b, Stateful.run_ofExcept_eq_ok.2 ⟨hinsert, rfl⟩, rfl⟩

theorem declareTarget_eq_error (hb : b.Sound) {target : String} {mask : Option (List UInt8)}
    {t : ShaderType} {f : Failure} :
    (declareTarget target mask t).run b = .error f b' ↔
      b.store.contains target = false ∧ mask.isSome = true ∧
        f = .error (.unknownVariable target) ∧ b' = b := by
  have hinsert : b.store.insert target (.zeroed t b.rows) =
      .ok (b.store.put target (.zeroed t b.rows)) := if_pos hb.store_rows.symm
  unfold declareTarget
  rw [Stateful.run_bind_eq_error]
  cases hcontains : b.store.contains target with
  | true =>
    constructor
    · rintro (h | ⟨_, _, hget, h⟩)
      · cases h
      · cases hget
        rw [hcontains] at h
        cases h
    · rintro ⟨h, -⟩
      cases h
  | false =>
    constructor
    · rintro (h | ⟨_, _, hget, h⟩)
      · cases h
      · cases hget
        rw [hcontains] at h
        cases mask with
        | some indices =>
          cases h
          exact ⟨rfl, rfl, rfl, rfl⟩
        | none =>
          rcases Stateful.run_bind_eq_error.1 h with h | ⟨_, _, -, h⟩
          · have := (Stateful.run_ofExcept_eq_error.1 h).1
            rw [hinsert] at this
            cases this
          · cases h
    · rintro ⟨-, hmask, rfl, rfl⟩
      refine .inr ⟨b', b', rfl, ?_⟩
      rw [hcontains]
      cases mask with
      | some indices => rfl
      | none => cases hmask

/-- What an assignment does once it has its target. -/
theorem assign_eq_ok {target : String} {mask : Option (List UInt8)} {value : Register} :
    (it.assign c target mask value).run b = .ok () b' ↔
      ∃ mid dst lanes written, (declareTarget target mask value.type).run b = .ok () mid ∧
        mid.store.get? target = some dst ∧ targetLanes target mask dst value = .ok lanes ∧
        it.writeLanes c target value lanes dst = .ok written ∧
        b' = { mid with store := mid.store.put target written } := by
  unfold assign
  constructor
  · intro h
    obtain ⟨_, mid, hdeclare, h₁⟩ := Stateful.run_bind_eq_ok.1 h
    obtain ⟨_, _, hget, h₂⟩ := Stateful.run_bind_eq_ok.1 h₁
    cases hget
    obtain ⟨dst, _, hrun, h₃⟩ := Stateful.run_bind_eq_ok.1 h₂
    obtain ⟨hdst, rfl⟩ := Stateful.run_ofExcept_eq_ok.1 hrun
    obtain ⟨lanes, _, hrun, h₄⟩ := Stateful.run_bind_eq_ok.1 h₃
    obtain ⟨hlanes, rfl⟩ := Stateful.run_ofExcept_eq_ok.1 hrun
    obtain ⟨written, _, hrun, h₅⟩ := Stateful.run_bind_eq_ok.1 h₄
    obtain ⟨hwritten, rfl⟩ := Stateful.run_ofExcept_eq_ok.1 hrun
    cases h₅
    exact ⟨_, dst, lanes, written, hdeclare, Batch.register_eq_ok.1 hdst, hlanes, hwritten, rfl⟩
  · rintro ⟨mid, dst, lanes, written, hdeclare, hdst, hlanes, hwritten, rfl⟩
    refine Stateful.run_bind_eq_ok.2 ⟨(), mid, hdeclare, ?_⟩
    refine Stateful.run_bind_eq_ok.2 ⟨mid, mid, rfl, ?_⟩
    refine Stateful.run_bind_eq_ok.2 ⟨dst, mid, Stateful.run_ofExcept_eq_ok.2
      ⟨Batch.register_eq_ok.2 hdst, rfl⟩, ?_⟩
    refine Stateful.run_bind_eq_ok.2 ⟨lanes, mid, Stateful.run_ofExcept_eq_ok.2 ⟨hlanes, rfl⟩, ?_⟩
    exact Stateful.run_bind_eq_ok.2 ⟨written, mid,
      Stateful.run_ofExcept_eq_ok.2 ⟨hwritten, rfl⟩, rfl⟩

/-! ## Frames -/

open Batch (Frame)

/-- Finding the target changes nothing that is there. -/
theorem frame_declareTarget (hb : b.Sound) {target : String} {mask : Option (List UInt8)}
    {t : ShaderType} (h : Ends (declareTarget target mask t) b b') :
    Frame c b b' ∧ b'.discarded = b.discarded := by
  cases h with
  | ok _ h =>
    obtain ⟨-, rfl⟩ | ⟨hnone, -, rfl⟩ := (declareTarget_eq_ok hb).1 h
    · exact ⟨.refl c hb, rfl⟩
    · exact ⟨Batch.frame_declare hb (Store.contains_eq_false_iff.1 hnone) t, rfl⟩
  | error e h =>
    obtain ⟨-, -, -, rfl⟩ := (declareTarget_eq_error hb).1 h
    exact ⟨.refl c hb, rfl⟩

/-- Once an assignment has its target, it writes to live rows of it. -/
theorem frame_write {mid : Batch} (hb : b.Sound) (hc : c.Closed) {target : String}
    {mask : Option (List UInt8)} {value : Register}
    (hmid : Ends (declareTarget target mask value.type) b mid)
    (h : Ends (it.assign c target mask value) b b') :
    Frame c mid b' ∧ b'.discarded = mid.discarded := by
  have hsound := (frame_declareTarget (c := c) hb hmid).1.sound
  rw [hmid.eq_final] at hsound ⊢
  obtain ⟨e, hrun⟩ | ⟨_, mid, hrun, h⟩ := h.bind
  · rw [(Ends.error e hrun).eq_final]
    exact ⟨.refl c hsound, rfl⟩
  rw [← (Ends.ok _ hrun).eq_final] at hsound ⊢
  obtain ⟨-, -, rfl⟩ | ⟨dst, hdst, h⟩ := h.get_bind.ofExcept_bind
  · exact ⟨.refl c hsound, rfl⟩
  obtain ⟨-, -, rfl⟩ | ⟨lanes, -, h⟩ := h.ofExcept_bind
  · exact ⟨.refl c hsound, rfl⟩
  obtain ⟨-, -, rfl⟩ | ⟨written, hwritten, h⟩ := h.ofExcept_bind
  · exact ⟨.refl c hsound, rfl⟩
  rw [h.set]
  exact ⟨Batch.frame_put hsound (Batch.register_eq_ok.1 hdst) (kept_writeLanes hc hwritten), rfl⟩

theorem frame_assign (hb : b.Sound) (hc : c.Closed) {target : String}
    {mask : Option (List UInt8)} {value : Register}
    (h : Ends (it.assign c target mask value) b b') :
    Frame c b b' ∧ b'.discarded = b.discarded := by
  have hmid := Stateful.ends_final (declareTarget target mask value.type) b
  have hdeclare := frame_declareTarget (c := c) hb hmid
  have hwrite := frame_write hb hc hmid h
  exact ⟨hdeclare.1.trans hwrite.1 fun _ hr => hr, hwrite.2.trans hdeclare.2⟩

/-- The chain that a statement hands on: the rows of its own that have not been discarded. -/
theorem execStmt_chain (hb : b.Sound) (hc : b.Runs c) {s : Stmt}
    (h : (it.execStmt c s).run b = .ok c' b') : c' = b'.remaining c := by
  cases s with
  | assign target mask e =>
    obtain ⟨value, -, hassign, rfl⟩ := execStmt_assign_eq_ok.1 h
    obtain ⟨hframe, hdiscarded⟩ := frame_assign hb hc.canonical.closed (.ok _ hassign)
    exact (hc.of_discarded_eq hframe.rows_eq hdiscarded).remaining_eq.symm
  | branch cond yes no =>
    obtain ⟨_, _, _, _, -, -, -, -, hchain⟩ := execStmt_branch_eq_ok.1 h
    exact hchain
  | discard =>
    obtain ⟨rfl, rfl⟩ := (execStmt_discard_eq_ok hb hc.rows_eq).1 h
    exact (Batch.remaining_discard hb hc.rows_eq).symm

mutual

/-- A statement changes nothing but rows that its chain visits, even if it fails half-way. -/
theorem frame_execStmt {b b' : Batch} (hb : b.Sound) {c : LiveChain} (hc : b.Runs c) (s : Stmt)
    (h : Ends (it.execStmt c s) b b') : Frame c b b' := by
  match s with
  | .assign target mask e =>
    obtain ⟨f, -, rfl⟩ | ⟨value, -, h⟩ := ends_assign h
    · exact .refl c hb
    · exact (frame_assign hb hc.canonical.closed h).1
  | .branch cond yes no =>
    have hlimit := hc.canonical.limit
    obtain ⟨f, -, rfl⟩ | ⟨p, -, h⟩ := ends_branch h
    · exact .refl c hb
    obtain ⟨f, hrun⟩ | ⟨mid, hrun, h⟩ := h
    · exact (frame_execBlock hb (hc.filter p) yes (.error f hrun)).mono
        (LiveChain.mem_of_mem_filter hlimit)
    have hyes := frame_execBlock hb (hc.filter p) yes (.ok _ hrun)
    have hruns := (hc.filter _).frame hyes fun r =>
      LiveChain.not_mem_filter_of_mem_filter_not hlimit
    exact (hyes.mono (LiveChain.mem_of_mem_filter hlimit)).trans
      (frame_execBlock hyes.sound hruns no h) (LiveChain.mem_of_mem_filter hlimit)
  | .discard =>
    rw [ends_discard hb hc.rows_eq h]
    exact Batch.frame_discard hb

theorem frame_execBlock {b b' : Batch} (hb : b.Sound) {c : LiveChain} (hc : b.Runs c)
    (body : List Stmt) (h : Ends (it.execBlock c body) b b') : Frame c b b' := by
  match body with
  | [] =>
    rw [ends_block_nil h]
    exact .refl c hb
  | s :: rest =>
    obtain ⟨-, rfl⟩ | ⟨-, h⟩ := ends_block_cons h
    · exact .refl c hb
    obtain ⟨f, hrun⟩ | ⟨c', mid, hrun, h⟩ := h
    · exact frame_execStmt hb hc s (.error f hrun)
    have hmid := frame_execStmt hb hc s (.ok c' hrun)
    rw [execStmt_chain hb hc hrun] at h
    have hruns := Batch.runs_remaining hc.canonical (hc.rows_eq.trans hmid.rows_eq.symm)
    exact hmid.trans (frame_execBlock hmid.sound hruns rest h)
      (LiveChain.mem_of_mem_filter hc.canonical.limit)

end

/-- The rows that go on after a statement still run. -/
theorem runs_execStmt (hb : b.Sound) (hc : b.Runs c) {s : Stmt}
    (h : (it.execStmt c s).run b = .ok c' b') : b'.Sound ∧ b'.Runs c' := by
  have hframe := frame_execStmt hb hc s (.ok c' h)
  rw [execStmt_chain hb hc h]
  exact ⟨hframe.sound,
    Batch.runs_remaining hc.canonical (hc.rows_eq.trans hframe.rows_eq.symm)⟩

/-- The rows of the other side of a branch still run after one side. -/
theorem runs_otherSide (hb : b.Sound) (hc : b.Runs c) {p : Nat → Bool} {body : List Stmt}
    (h : (it.execBlock (c.filter p) body).run b = .ok () b') :
    b'.Sound ∧ b'.Runs (c.filter fun row => !p row) := by
  have hframe := frame_execBlock hb (hc.filter p) body (.ok _ h)
  exact ⟨hframe.sound, (hc.filter _).frame hframe fun r =>
    LiveChain.not_mem_filter_of_mem_filter_not hc.canonical.limit⟩

/-- Statements in two parts. If the first part succeeds, the second one runs under what remains of
the chain, and if it fails, that is the end. -/
theorem run_execBlock_append (hb : b.Sound) (hc : b.Runs c) (first second : List Stmt) :
    (it.execBlock c (first ++ second)).run b =
      (do it.execBlock c first; it.execBlock ((← get).remaining c) second : Action Unit).run b := by
  induction first generalizing b c with
  | nil =>
    rw [execBlock]
    change _ = (it.execBlock (b.remaining c) second).run b
    rw [hc.remaining_eq, List.nil_append]
  | cons s first ih =>
    cases hempty : c.isEmpty with
    | true =>
      rw [execBlock, if_pos hempty, List.cons_append, execBlock, if_pos hempty]
      change _ = (it.execBlock (b.remaining c) second).run b
      rw [hc.remaining_eq, execBlock_of_isEmpty hempty]
      rfl
    | false =>
      rw [List.cons_append, execBlock, execBlock, hempty, if_neg Bool.false_ne_true,
        if_neg Bool.false_ne_true, bind_assoc]
      refine Stateful.run_bind_congr rfl fun c' mid hs => ?_
      have hmid := frame_execStmt hb hc s (.ok c' hs)
      obtain rfl := execStmt_chain hb hc hs
      have hruns := Batch.runs_remaining hc.canonical (hc.rows_eq.trans hmid.rows_eq.symm)
      rw [ih hmid.sound hruns]
      refine Stateful.run_bind_congr rfl fun _ last hfirst => ?_
      have hlast := frame_execBlock hmid.sound hruns first (.ok _ hfirst)
      change (it.execBlock (last.remaining (mid.remaining c)) second).run last =
        (it.execBlock (last.remaining c) second).run last
      rw [Batch.remaining_remaining hc.canonical.limit hlast.discarded_mono]

theorem execBlock_append (hb : b.Sound) (hc : b.Runs c) {first second : List Stmt} :
    (it.execBlock c (first ++ second)).run b = .ok () b' ↔
      ∃ mid, (it.execBlock c first).run b = .ok () mid ∧
        (it.execBlock (mid.remaining c) second).run mid = .ok () b' := by
  rw [run_execBlock_append hb hc, Stateful.run_bind_eq_ok]
  exact ⟨fun ⟨_, mid, hfirst, h⟩ => ⟨mid, hfirst, h⟩, fun ⟨mid, hfirst, h⟩ => ⟨(), mid, hfirst, h⟩⟩

/-! ## Settings -/

theorem assign_paths (it it' : Interpreter) (c : LiveChain) (target : String)
    (mask : Option (List UInt8)) (value : Register) :
    it'.assign c target mask value = it.assign c target mask value := by
  have hs : (it'.sweep c).chain = (it.sweep c).chain := rfl
  simp only [assign, writeLanes, Sweep.convertInto_paths hs]

section SameCalls

variable {it' : Interpreter}

mutual

theorem SameCalls.execStmt_eq (h : SameCalls it it') (c : LiveChain) (s : Stmt) :
    it'.execStmt c s = it.execStmt c s := by
  match s with
  | .assign target mask e =>
    rw [execStmt, execStmt]
    simp only [h.eval_eq, assign_paths it it']
  | .branch cond yes no =>
    have hyes : ∀ c, it'.execBlock c yes = it.execBlock c yes := fun c => h.execBlock_eq c yes
    have hno : ∀ c, it'.execBlock c no = it.execBlock c no := fun c => h.execBlock_eq c no
    rw [execStmt, execStmt]
    simp only [h.eval_eq, hyes, hno]
  | .discard => rw [execStmt, execStmt]

theorem SameCalls.execBlock_eq (h : SameCalls it it') (c : LiveChain) (body : List Stmt) :
    it'.execBlock c body = it.execBlock c body := by
  match body with
  | [] => rw [execBlock, execBlock]
  | s :: rest =>
    have hrest : ∀ c, it'.execBlock c rest = it.execBlock c rest := fun c => h.execBlock_eq c rest
    rw [execBlock, execBlock, h.execStmt_eq c s]
    simp only [hrest]

end

theorem Alike.execBlock_eq (h : Alike it it') (c : LiveChain) (body : List Stmt) :
    it'.execBlock c body = it.execBlock c body := h.sameCalls.execBlock_eq c body

end SameCalls

/-! ## Runs -/

/-- The statements that a run executes. -/
def bodyOf (it : Interpreter) (shader : Shader) : Outcome (List Stmt) :=
  if it.config.foldConstants then Folding.foldBlock it.registry shader.body else .ok shader.body

/-- A run checks the size of the batch, folds the body, and executes it under the batch's chain. -/
theorem run_eq (it : Interpreter) (shader : Shader) (b : Batch) :
    (it.run shader).run b =
      if it.config.batchRows < b.rows then
        .error (.error (.batchTooLarge b.rows it.config.batchRows)) b
      else match it.bodyOf shader with
        | .ok body => (it.execBlock b.chain body).run b
        | .error e => .error e b := by
  unfold run bodyOf
  by_cases hrows : it.config.batchRows < b.rows
  · rw [if_pos hrows]
    change EStateM.run (if it.config.batchRows < b.rows then _ else _) b = _
    rw [if_pos hrows]
    rfl
  · rw [if_neg hrows]
    change EStateM.run (if it.config.batchRows < b.rows then _ else _) b = _
    rw [if_neg hrows]
    cases it.config.foldConstants with
    | false => rfl
    | true =>
      simp only [if_true]
      cases Folding.foldBlock it.registry shader.body <;> rfl

theorem run_eq_ok {shader : Shader} :
    (it.run shader).run b = .ok () b' ↔ b.rows ≤ it.config.batchRows ∧
      ∃ body, it.bodyOf shader = .ok body ∧ (it.execBlock b.chain body).run b = .ok () b' := by
  rw [run_eq]
  by_cases hrows : it.config.batchRows < b.rows
  · rw [if_pos hrows]
    exact ⟨fun h => (nomatch h), fun h => absurd h.1 (Nat.not_le.2 hrows)⟩
  · rw [if_neg hrows]
    cases it.bodyOf shader with
    | ok body => exact ⟨fun h => ⟨Nat.not_lt.1 hrows, body, rfl, h⟩, fun ⟨_, _, e, h⟩ => by
        cases e
        exact h⟩
    | error e => exact ⟨fun h => (nomatch h), fun ⟨_, _, e, _⟩ => nomatch e⟩

/-- A run changes nothing but live rows, even if it fails half-way. -/
theorem frame_run (hb : b.Sound) {shader : Shader} (h : Ends (it.run shader) b b') :
    Frame b.chain b b' := by
  cases h with
  | ok _ h =>
    obtain ⟨-, body, -, h⟩ := run_eq_ok.1 h
    exact frame_execBlock hb hb.runs body (.ok _ h)
  | error e h =>
    rw [run_eq] at h
    split at h
    · cases h
      exact .refl b.chain hb
    · split at h
      · next body _ => exact frame_execBlock hb hb.runs body (.error e h)
      · cases h
        exact .refl b.chain hb

end Interpreter

/-! ## Reachable batches -/

/-- The batches that a host gets to: made, bound to textures, given variables, and run on, with
success or not. -/
inductive Batch.Reachable : Batch → Prop
  | new {rows : Nat} {b : Batch} (h : Batch.new rows = .ok b) : Reachable b
  | ofMask {mask : Array Bool} {b : Batch} (h : Batch.ofMask mask = .ok b) : Reachable b
  | withTextures {b : Batch} (hb : Reachable b) (textures : TextureUnits) :
      Reachable (b.withTextures textures)
  | setInput {b b' : Batch} {x : String} {R : Register} (hb : Reachable b) (hR : R.WellFormed)
      (h : b.setInput x R = .ok b') : Reachable b'
  | setUniform {b b' : Batch} {x : String} {v : Value} (hb : Reachable b)
      (h : b.setUniform x v = .ok b') : Reachable b'
  | run {b b' : Batch} {it : Interpreter} {shader : Shader} (hb : Reachable b)
      (h : Ends (it.run shader) b b') : Reachable b'

theorem Batch.Reachable.sound {b : Batch} (h : b.Reachable) : b.Sound := by
  induction h with
  | new h =>
    obtain ⟨c, hc, h⟩ := Outcome.bind_eq_ok.1 h
    rw [← Except.ok.inj h]
    exact sound_ofChain (LiveChain.canonical_of_full hc)
  | ofMask h =>
    obtain ⟨c, hc, h⟩ := Outcome.bind_eq_ok.1 h
    rw [← Except.ok.inj h]
    exact sound_ofChain (LiveChain.canonical_of_ofMask hc)
  | withTextures _ textures ih =>
    exact ⟨ih.chain, ih.store_rows, ih.wellFormed, ih.size_discarded, ih.live⟩
  | setInput _ hR h ih => exact ih.setInput hR h
  | setUniform _ h ih => exact ih.setInput (Register.splat_wellFormed ..) h
  | run _ h ih => exact (Interpreter.frame_run ih h).sound

end BatchShader
