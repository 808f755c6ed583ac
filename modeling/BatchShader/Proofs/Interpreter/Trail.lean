import BatchShader.Proofs.Interpreter.History

/-
  The batches that a run passes through, and the rows that it never touches.

  `Interpreter.trail` lists the batches after each change that a run makes: a declaration, a write,
  a discard, also inside branches and before a failure. From each of them to the next one nothing
  changes but rows of the chain that are still running (`Trail`, `trail_execBlock`). So the last
  one is the batch that the run leaves, rows that were not live at the start are as they were, and a
  row that has been discarded stays as it was then, for the rest of the run and in every later run
  (`run_spares`).
-/

namespace BatchShader

open Stateful (Ends final)

namespace Interpreter

variable {it : Interpreter} {b b' : Batch} {c : LiveChain}

/-! ## The batches on the way -/

mutual

/-- The batches after each change that a statement makes, to its end or its failure. -/
def trailStmt (it : Interpreter) (chain : LiveChain) (b : Batch) : Stmt → List Batch
  | .assign target mask e =>
    match it.eval b chain e with
    | .ok value =>
      [final (declareTarget target mask value.type) b, final (it.assign chain target mask value) b]
    | .error _ => []
  | .branch cond yes no =>
    match it.eval b chain cond >>= splitOn chain with
    | .ok (taken, notTaken) =>
      it.trailBlock taken b yes ++
        match (it.execBlock taken yes).run b with
        | .ok _ mid => it.trailBlock notTaken mid no
        | .error _ _ => []
    | .error _ => []
  | .discard => [b.discard chain]

/-- The batches after each change that a list of statements makes. -/
def trailBlock (it : Interpreter) (chain : LiveChain) (b : Batch) : List Stmt → List Batch
  | [] => []
  | s :: rest =>
    if chain.isEmpty then []
    else
      it.trailStmt chain b s ++
        match (it.execStmt chain s).run b with
        | .ok chain mid => it.trailBlock chain mid rest
        | .error _ _ => []

end

/-- The batches after each change that a run makes. -/
def trail (it : Interpreter) (b : Batch) (shader : Shader) : List Batch :=
  if it.config.batchRows < b.rows then []
  else match it.bodyOf shader with
    | .ok body => it.trailBlock b.chain b body
    | .error _ => []

end Interpreter

namespace Batch

/-! ## Trails -/

/-- A way from one batch to another through the listed ones, which ends with the last of them. Each
differs from the one before only at rows of the chain that were still running then. -/
inductive Trail (c : LiveChain) : Batch → List Batch → Batch → Prop
  | nil (b : Batch) : Trail c b [] b
  | cons {b m b' : Batch} {l : List Batch} (h : Frame (b.remaining c) b m) (t : Trail c m l b') :
      Trail c b (m :: l) b'

namespace Trail

variable {b m b' : Batch} {l l' : List Batch} {c d : LiveChain}

theorem single (hc : b.Runs c) (h : Frame c b b') : Trail c b [b'] b' :=
  .cons (by rwa [hc.remaining_eq]) (.nil b')

theorem append (h : Trail c b l m) (h' : Trail c m l' b') : Trail c b (l ++ l') b' := by
  induction h with
  | nil b => exact h'
  | cons h _ ih => exact .cons h (ih h')

/-- A trail under a chain is one under any chain that visits more rows. -/
theorem mono (hc : c.rows ≤ maxBatchRows) (hd : d.rows ≤ maxBatchRows)
    (hsub : ∀ r ∈ d.visited, r ∈ c.visited) (h : Trail d b l b') : Trail c b l b' := by
  induction h with
  | nil b => exact .nil b
  | cons h _ ih =>
    refine .cons (h.mono fun r hr => ?_) ih
    rw [mem_visited_remaining hd] at hr
    exact (mem_visited_remaining hc).2 ⟨hsub r hr.1, hr.2⟩

theorem getLast?_eq (h : Trail c b l b') : (b :: l).getLast? = some b' := by
  induction h with
  | nil b => rfl
  | cons h _ ih => rwa [List.getLast?_cons_cons]

theorem sound (hb : b.Sound) (h : Trail c b l b') : ∀ m ∈ b :: l, m.Sound := by
  induction h with
  | nil b => exact List.forall_mem_singleton.2 hb
  | cons h _ ih => exact List.forall_mem_cons.2 ⟨hb, ih h.sound⟩

/-- From a batch to any later one on a trail, only rows that were still running have changed. -/
theorem pairwise (hc : c.rows ≤ maxBatchRows) (h : Trail c b l b') :
    (b :: l).Pairwise fun m m' => Frame (m.remaining c) m m' := by
  induction h with
  | nil b => exact List.pairwise_singleton ..
  | @cons b m b' l h _ ih =>
    refine List.pairwise_cons.2 ⟨List.forall_mem_cons.2 ⟨h, fun m' hm' => ?_⟩, ih⟩
    refine h.trans (List.rel_of_pairwise_cons ih hm') fun r hr => ?_
    rw [mem_visited_remaining hc] at hr ⊢
    refine ⟨hr.1, Bool.eq_false_iff.2 fun hdiscarded => ?_⟩
    rw [h.discarded_mono r hdiscarded] at hr
    cases hr.2

end Trail

end Batch

namespace Interpreter

variable {it : Interpreter} {b b' : Batch} {c : LiveChain}

open Batch (Trail)

/-- An assignment changes the batch twice, and neither time a row that is not live. -/
theorem trail_assign (hb : b.Sound) (hc : b.Runs c) {target : String} {mask : Option (List UInt8)}
    {value : Register} :
    Trail c b [final (declareTarget target mask value.type) b,
      final (it.assign c target mask value) b] (final (it.assign c target mask value) b) := by
  have hmid := Stateful.ends_final (declareTarget target mask value.type) b
  obtain ⟨hdeclare, hdiscarded⟩ := frame_declareTarget (c := c) hb hmid
  have hwrite := frame_write hb hc.canonical.closed hmid
    (Stateful.ends_final (it.assign c target mask value) b)
  exact (Trail.single hc hdeclare).append
    (Trail.single (hc.of_discarded_eq hdeclare.rows_eq hdiscarded) hwrite.1)

mutual

/-- The batches on the way through a statement are a trail to where it ends. -/
theorem trail_execStmt {b b' : Batch} (hb : b.Sound) {c : LiveChain} (hc : b.Runs c) (s : Stmt)
    (h : Ends (it.execStmt c s) b b') : Trail c b (it.trailStmt c b s) b' := by
  match s with
  | .assign target mask e =>
    rw [trailStmt]
    obtain ⟨f, hvalue, rfl⟩ | ⟨value, hvalue, h⟩ := ends_assign h
    · rw [hvalue]
      exact .nil _
    · rw [hvalue, h.eq_final]
      exact trail_assign hb hc
  | .branch cond yes no =>
    -- Either side is a trail under its own part of the chain.
    have hside {m m' : Batch} {l : List Batch} {p : Nat → Bool}
        (ht : Trail (c.filter p) m l m') : Trail c m l m' :=
      ht.mono hc.canonical.limit ((LiveChain.rows_filter c p).trans_le hc.canonical.limit)
        (LiveChain.mem_of_mem_filter hc.canonical.limit)
    rw [trailStmt]
    obtain ⟨f, hsplit, rfl⟩ | ⟨p, hsplit, h⟩ := ends_branch h
    · rw [hsplit]
      exact .nil _
    rw [hsplit]
    dsimp only
    obtain ⟨f, hrun⟩ | ⟨mid, hrun, h⟩ := h
    · rw [hrun, List.append_nil]
      exact hside (trail_execBlock hb (hc.filter p) yes (.error f hrun))
    · rw [hrun]
      obtain ⟨hmid, hruns⟩ := runs_otherSide hb hc hrun
      exact (hside (trail_execBlock hb (hc.filter p) yes (.ok _ hrun))).append
        (hside (trail_execBlock hmid hruns no h))
  | .discard =>
    rw [trailStmt, ends_discard hb hc.rows_eq h]
    exact .single hc (Batch.frame_discard hb)

theorem trail_execBlock {b b' : Batch} (hb : b.Sound) {c : LiveChain} (hc : b.Runs c)
    (body : List Stmt) (h : Ends (it.execBlock c body) b b') :
    Trail c b (it.trailBlock c b body) b' := by
  match body with
  | [] =>
    rw [trailBlock, ends_block_nil h]
    exact .nil b
  | s :: rest =>
    rw [trailBlock]
    obtain ⟨hempty, rfl⟩ | ⟨hlive, h⟩ := ends_block_cons h
    · rw [if_pos hempty]
      exact .nil _
    rw [hlive, if_neg Bool.false_ne_true]
    obtain ⟨f, hrun⟩ | ⟨c', mid, hrun, h⟩ := h
    · rw [hrun, List.append_nil]
      exact trail_execStmt hb hc s (.error f hrun)
    · rw [hrun]
      have hstmt := trail_execStmt hb hc s (.ok c' hrun)
      obtain ⟨hmid, hruns⟩ := runs_execStmt hb hc hrun
      refine hstmt.append ((trail_execBlock hmid hruns rest h).mono hc.canonical.limit
        hruns.canonical.limit ?_)
      rw [execStmt_chain hb hc hrun]
      exact LiveChain.mem_of_mem_filter hc.canonical.limit

end

theorem trail_run (hb : b.Sound) {shader : Shader} (h : Ends (it.run shader) b b') :
    Trail b.chain b (it.trail b shader) b' := by
  rw [h.eq_final, final, run_eq, trail]
  split
  · exact .nil b
  · cases it.bodyOf shader with
    | ok body => exact trail_execBlock hb hb.runs body (Stateful.ends_final ..)
    | error e => exact .nil b

end Interpreter

/-! ## Untouched rows -/

namespace Batch

/-- From one batch to another a row has not been touched: variables have kept their type and their
value at the row, new ones hold zero there, and the row was neither discarded nor brought back. -/
structure Untouched (r : Nat) (b b' : Batch) : Prop where
  kept : ∀ x R, b.store.get? x = some R →
    ∃ R', b'.store.get? x = some R' ∧ R'.type = R.type ∧ R'.rowValue? r = R.rowValue? r
  declared : ∀ x R', b.store.get? x = none → b'.store.get? x = some R' →
    R'.rowValue? r = Value.zero? R'.type
  discarded_eq : b'.isDiscarded r = b.isDiscarded r

section Untouched

variable {b b' : Batch} {c : LiveChain} {r : Nat}

/-- Rows that the chain does not visit are not touched. -/
theorem Frame.untouched (h : Frame c b b') (hb : b.Sound) (hr : r ∉ c.visited) (hlt : r < b.rows) :
    Untouched r b b' where
  kept x R hR := by
    obtain ⟨R', hR', hkept⟩ := h.kept x R hR
    have hltR : r < R.rows := (hb.wellFormed x R hR).2.symm ▸ hlt
    refine ⟨R', hR', hkept.type_eq, ?_⟩
    rw [← R.rowValue?_atRow hltR, ← R'.rowValue?_atRow (hkept.rows_eq.symm ▸ hltR),
      hkept.atRow_eq r hr]
  declared x R' hnone hR' := by
    have hkept := h.declared x R' hnone hR'
    rw [← R'.rowValue?_atRow (hkept.rows_eq.symm ▸ hlt), hkept.atRow_eq r hr,
      Register.atRow_zeroed hlt, Register.rowValue?_zeroed]
  discarded_eq := h.discarded_eq r hr

theorem Sound.lt_rows_of_isDiscarded (hb : b.Sound) (hr : b.isDiscarded r = true) : r < b.rows := by
  by_contra hlt
  have hsize := hb.size_discarded
  simp [isDiscarded, Array.getD, hsize, hlt] at hr

/-- A row that is discarded somewhere on a trail is not touched from there on. -/
theorem Trail.untouched {l : List Batch} (h : Trail c b l b') (hb : b.Sound)
    (hc : c.rows ≤ maxBatchRows) :
    (b :: l).Pairwise fun m m' => ∀ r, m.isDiscarded r = true → Untouched r m m' := by
  refine (h.pairwise hc).imp_of_mem fun {m m'} hm _ hframe r hr => ?_
  have hsound := h.sound hb m hm
  refine hframe.untouched hsound (fun hlive => ?_) (hsound.lt_rows_of_isDiscarded hr)
  rw [mem_visited_remaining hc, hr] at hlive
  cases hlive.2

end Untouched

end Batch

namespace Interpreter

open Batch (Untouched Evolves)

/-- What a run leaves alone. -/
structure Spares (it : Interpreter) (shader : Shader) (b b' : Batch) : Prop where
  kept : ∀ x R, b.store.get? x = some R → ∃ R', b'.store.get? x = some R' ∧ R'.type = R.type
  /-- Rows that were not live at the start. -/
  inactive : ∀ r < b.rows, r ∉ b.chain.visited → Untouched r b b'
  ends : (b :: it.trail b shader).getLast? = some b'
  /-- Rows that are discarded at some time, for the rest of the run. -/
  discarded : (b :: it.trail b shader).Pairwise fun m m' =>
    ∀ r, m.isDiscarded r = true → Untouched r m m'
  /-- Rows that have been discarded, in any run after whatever else was done to the batch. -/
  later : ∀ r, b'.isDiscarded r = true → ∀ b₁, Evolves b' b₁ →
    ∀ (it₁ : Interpreter) (shader₁ : Shader) (b₂ : Batch), Ends (it₁.run shader₁) b₁ b₂ →
      Untouched r b₁ b₂ ∧ ∀ m ∈ it₁.trail b₁ shader₁, Untouched r b₁ m

/-- A run of any shader, well typed or not, leaves the rows alone that are not live, whether it
succeeds or fails half-way; a discarded row is left alone from then on. -/
theorem run_spares {it : Interpreter} {shader : Shader} {b b' : Batch} (hb : b.Reachable)
    (h : Ends (it.run shader) b b') : Spares it shader b b' where
  kept x R hR := by
    obtain ⟨R', hR', hkept⟩ := (frame_run hb.sound h).kept x R hR
    exact ⟨R', hR', hkept.type_eq⟩
  inactive r hlt hr := (frame_run hb.sound h).untouched hb.sound hr hlt
  ends := (trail_run hb.sound h).getLast?_eq
  discarded := (trail_run hb.sound h).untouched hb.sound hb.sound.chain.limit
  later r hr b₁ hevolves it₁ shader₁ b₂ h₁ := by
    have hb' := hb.run h
    have hsound := (hb'.evolves hevolves).sound
    have hr₁ := (hevolves.stops hb').discarded_mono r hr
    have htrail := (trail_run hsound h₁).untouched hsound hsound.chain.limit
    refine ⟨(frame_run hsound h₁).untouched hsound (fun hlive => ?_)
      (hsound.lt_rows_of_isDiscarded hr₁), fun m hm => List.rel_of_pairwise_cons htrail hm r hr₁⟩
    rw [hsound.live r hlive] at hr₁
    cases hr₁

theorem run_spares_failing :
    let it : Interpreter := ⟨Builtin.standardRegistry, .standard⟩
    let shader : Shader := ⟨.fragment, [.branch (.var "lit" .bool) [] [.discard],
      .assign "shade" none (.var "lit" .bool), .assign "color" (some [0]) (.var "lit" .bool)]⟩
    ∃ b e b', b.Reachable ∧ (it.run shader).run b = .error e b' ∧ 2 ∉ b.chain.visited ∧
      b'.isDiscarded 1 = true ∧ b'.store.contains "shade" = true ∧ Spares it shader b b' := by
  intro it shader
  let lit : Register := ⟨.bool, 3, [⟨.bool, #[true, false, true]⟩]⟩
  let b : Batch := { Batch.ofChain (.build 3 [0, 1]) with store := (Store.new 3).put "lit" lit }
  have hlit : lit.WellFormed := Register.wellFormed_conditions #[true, false, true]
  have hb : b.Reachable :=
    .setInput (.ofMask (by exact rfl : Batch.ofMask #[true, true, false] = .ok _)) hlit rfl
  obtain ⟨e, b', hrun, hend⟩ := Stateful.exists_run_eq_error (x := it.run shader) (s := b)
    (P := fun _ b' => b'.isDiscarded 1 && b'.store.contains "shade") (by decide +kernel)
  rw [Bool.and_eq_true] at hend
  exact ⟨b, e, b', hb, hrun, by decide +kernel, hend.1, hend.2, run_spares hb (.error e hrun)⟩

end Interpreter

end BatchShader
