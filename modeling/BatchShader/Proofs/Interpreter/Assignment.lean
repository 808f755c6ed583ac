import BatchShader.Proofs.Builtin.Standard
import BatchShader.Proofs.Interpreter.Components
import BatchShader.Proofs.Interpreter.Names

/-
  Assignments happen as a whole.

  `Assigned` says what an assignment makes of a batch when it succeeds: each component of the target
  gets, at the live rows, the last component of the value that the mask sends there, and the value
  is what the expression was before. An assignment that fails leaves no trace (`assign_atomic`).
  `assignInPlace` writes each component into the batch at once. That does not show either, since no
  component is written before all of them can be (`exists_writeLanes`).
-/

namespace BatchShader

namespace Stateful

variable {ε σ α β : Type} {f : α → EStateM ε σ β} {s t : σ}

theorem run_bind_of_ok {x : EStateM ε σ α} {a : α} (h : x.run s = .ok a t) :
    (x >>= f).run s = (f a).run t := by
  change EStateM.bind x f s = _
  change x s = _ at h
  rw [EStateM.bind, h]
  rfl

theorem run_bind_of_error {x : EStateM ε σ α} {e : ε} (h : x.run s = .error e t) :
    (x >>= f).run s = .error e t := run_bind_eq_error.2 (.inl h)

theorem run_get_bind {f : σ → EStateM ε σ β} :
    ((get : EStateM ε σ σ) >>= f).run s = (f s).run s := rfl

theorem run_ofExcept_bind {x : Except ε α} : (ofExcept x >>= f).run s =
    match x with
    | .ok a => (f a).run s
    | .error e => .error e s := by
  cases x <;> rfl

end Stateful

open Stateful (run_bind_of_ok run_bind_of_error run_get_bind run_ofExcept_bind)

namespace Interpreter

variable {it : Interpreter} {b b' mid : Batch} {c c' : LiveChain} {target : String}
  {mask : Option (List UInt8)} {value dst : Register}

/-! ## Where a component goes -/

/-- Component `j` of the target gets component `i` of the value: the last one that the mask sends
there, or without a mask the one at the same place. -/
def Source (mask : Option (List UInt8)) (j i : Nat) : Prop :=
  match mask with
  | none => i = j
  | some indices =>
    (indices.map UInt8.toNat)[i]? = some j ∧
      ∀ i', i < i' → (indices.map UInt8.toNat)[i']? ≠ some j

/-- The lanes that are written are those that have a source. -/
theorem source_iff {lanes : List Nat} (h : targetLanes target mask dst value = .ok lanes)
    {i j : Nat} (hi : i < value.type.components) :
    Source mask j i ↔ lanes[i]? = some j ∧ ∀ i', i < i' → lanes[i']? ≠ some j := by
  cases mask with
  | none =>
    obtain ⟨-, rfl⟩ := targetLanes_none_eq_ok.1 h
    rw [Source]
    constructor
    · rintro rfl
      refine ⟨List.getElem?_range hi, fun i' hi' hget => ?_⟩
      obtain ⟨hlt, hget⟩ := List.getElem?_eq_some_iff.1 hget
      rw [List.getElem_range] at hget
      omega
    · rintro ⟨hget, -⟩
      rw [List.getElem?_range hi, Option.some.injEq] at hget
      exact hget
  | some indices =>
    obtain ⟨-, -, -, rfl⟩ := targetLanes_some_eq_ok.1 h
    exact Iff.rfl

/-! ## A target that is there -/

/-- Once an assignment has its target, its checks and its write decide. -/
theorem run_assign (hdeclare : (declareTarget target mask value.type).run b = .ok () mid)
    (hdst : mid.store.get? target = some dst) :
    (it.assign c target mask value).run b =
      match targetLanes target mask dst value >>= fun lanes =>
        it.writeLanes c target value lanes dst with
      | .ok written => .ok () { mid with store := mid.store.put target written }
      | .error f => .error f mid := by
  have hregister := Batch.register_eq_ok.2 hdst
  unfold assign
  rw [run_bind_of_ok hdeclare, run_get_bind, hregister, run_ofExcept_bind]
  dsimp only
  rw [run_ofExcept_bind]
  cases targetLanes target mask dst value with
  | error f => rfl
  | ok lanes =>
    dsimp only
    rw [run_ofExcept_bind, Outcome.ok_bind]
    cases it.writeLanes c target value lanes dst <;> rfl

/-- When an assignment has its target, the target is there: as it was, or declared. -/
theorem exists_target (hb : b.Sound)
    (hdeclare : (declareTarget target mask value.type).run b = .ok () mid) :
    ∃ dst, mid.store.get? target = some dst ∧
      (b.store.get? target = some dst ∧ mid = b ∨
        b.store.get? target = none ∧ mask = none ∧ dst = .zeroed value.type b.rows) := by
  obtain ⟨hcontains, rfl⟩ | ⟨hnone, rfl, rfl⟩ := (declareTarget_eq_ok hb).1 hdeclare
  · obtain ⟨dst, hdst⟩ := Store.contains_eq_true_iff.1 hcontains
    exact ⟨dst, hdst, .inl ⟨hdst, rfl⟩⟩
  · exact ⟨_, Store.get?_put_self .., .inr ⟨Store.contains_eq_false_iff.1 hnone, rfl, rfl⟩⟩

/-- A value that passes the checks can be written. -/
theorem exists_written (it : Interpreter) (hb : b.Sound) (hc : c.Closed) (hrows : c.rows = b.rows)
    (hvalue : value.Spans c.rows)
    (hdeclare : (declareTarget target mask value.type).run b = .ok () mid)
    (hdst : mid.store.get? target = some dst) {lanes : List Nat}
    (hlanes : targetLanes target mask dst value = .ok lanes) :
    ∃ written, it.writeLanes c target value lanes dst = .ok written := by
  obtain ⟨hframe, -⟩ := frame_declareTarget (c := c) hb (.ok _ hdeclare)
  have hspans : dst.Spans c.rows := by
    rw [hrows, ← hframe.rows_eq]
    exact hframe.sound.wellFormed target dst hdst
  obtain ⟨hlength, -, hbound⟩ := targetLanes_fit hlanes
  exact exists_writeLanes it target hc hvalue hspans hlength hbound

/-! ## Failure -/

theorem execStmt_assign_eq_error {e : Expr} {f : Failure} :
    (it.execStmt c (.assign target mask e)).run b = .error f b' ↔
      it.eval b c e = .error f ∧ b' = b ∨
        ∃ value, it.eval b c e = .ok value ∧
          (it.assign c target mask value).run b = .error f b' := by
  rw [execStmt, run_get_bind, run_ofExcept_bind]
  cases it.eval b c e with
  | error f' => simp [eq_comm]
  | ok value =>
    dsimp only
    rw [Stateful.run_bind_eq_error]
    constructor
    · rintro (h | ⟨_, _, -, h⟩)
      · exact .inr ⟨value, rfl, h⟩
      · cases h
    · rintro (⟨h, -⟩ | ⟨_, h, hassign⟩)
      · cases h
      · cases h
        exact .inl hassign

/-- An assignment that fails leaves the batch as it was. After a declaration it cannot fail: the
new target is of the value's type. -/
theorem assign_eq_error (hb : b.Sound) (hc : c.Closed) (hrows : c.rows = b.rows)
    (hvalue : value.Spans c.rows) {f : Failure}
    (h : (it.assign c target mask value).run b = .error f b') : b' = b := by
  cases hdeclare : (declareTarget target mask value.type).run b with
  | error f' mid =>
    rw [assign, run_bind_of_error hdeclare] at h
    cases h
    exact ((declareTarget_eq_error hb).1 hdeclare).2.2.2
  | ok _ mid =>
    obtain ⟨dst, hdst, ⟨-, rfl⟩ | ⟨-, rfl, rfl⟩⟩ := exists_target hb hdeclare
    · rw [run_assign hdeclare hdst] at h
      split at h
      · cases h
      · cases h
        rfl
    · have hlanes : targetLanes target none (.zeroed value.type b.rows) value = .ok _ :=
        targetLanes_none_eq_ok.2 ⟨rfl, rfl⟩
      obtain ⟨written, hwritten⟩ :=
        exists_written it hb hc hrows hvalue hdeclare hdst hlanes
      rw [run_assign hdeclare hdst, hlanes, Outcome.ok_bind, hwritten] at h
      cases h

/-! ## Success -/

/-- The value has been assigned to the target, which was `old` and is `new`. -/
structure Assigned (c : LiveChain) (b b' : Batch) (target : String) (mask : Option (List UInt8))
    (value old new : Register) : Prop where
  /-- The target was there, or an assignment without a mask has declared it as zero. -/
  old_eq : b.store.get? target = some old ∨
    b.store.get? target = none ∧ mask = none ∧ old = .zeroed value.type b.rows
  /-- Nothing but the target has changed. -/
  batch_eq : b' = { b with store := b.store.put target new }
  shaped : new.Shaped old.type b.rows
  written : ∀ r ∈ c.visited, ∀ i < value.type.components, ∀ j, Source mask j i →
    ∃ s, value.component? i r = some s ∧ new.component? j r = some s
  kept : ∀ r j, r ∉ c.visited ∨ (∀ i < value.type.components, ¬Source mask j i) →
    new.component? j r = old.component? j r

theorem assigned_of_assign (hb : b.Sound) (hc : c.Closed) (hvalue : value.Spans c.rows)
    (h : (it.assign c target mask value).run b = .ok () b') :
    ∃ old new, Assigned c b b' target mask value old new := by
  obtain ⟨mid, dst, lanes, written, hdeclare, hdst, hlanes, hwritten, rfl⟩ := assign_eq_ok.1 h
  obtain ⟨hframe, -⟩ := frame_declareTarget (c := c) hb (.ok _ hdeclare)
  obtain ⟨hwf, hdstrows⟩ := hframe.sound.wellFormed target dst hdst
  obtain ⟨hlength, hkind, hbound⟩ := targetLanes_fit hlanes
  have hkept := kept_writeLanes hc hwritten
  refine ⟨dst, written, ?_, ?_, ?_, fun r hr i hi j hsource => ?_, fun r j hrj => ?_⟩
  · obtain ⟨dst', hdst', hold⟩ := exists_target hb hdeclare
    obtain rfl : dst' = dst := Option.some.inj (hdst'.symm.trans hdst)
    exact hold.imp_left And.left
  · exact put_declareTarget hb hdeclare written
  · exact Register.shaped_iff.2 ⟨hkept.type_eq,
      hkept.rows_eq.trans (hdstrows.trans hframe.rows_eq), hkept.wellFormed hwf⟩
  · have hlt : r < value.rows := by
      rw [hvalue.2]
      exact LiveChain.lt_rows_of_mem_visited hr
    obtain ⟨s, hs⟩ := hvalue.1.exists_component hi hlt
    obtain ⟨hget, hlast⟩ := (source_iff hlanes hi).1 hsource
    have hsame := (writeLanes_component hc hr hvalue.1 hwf hkind hbound hwritten).2 i j hget hlast
    exact ⟨s, hs, hsame.trans hs⟩
  · by_cases hr : r ∈ c.visited
    · obtain hdead | hnone := hrj
      · exact absurd hr hdead
      refine (writeLanes_component hc hr hvalue.1 hwf hkind hbound hwritten).1 j fun hj => ?_
      obtain ⟨i, hget, hlast⟩ := exists_last_getElem? hj
      have hi : i < value.type.components := hlength ▸ (List.getElem?_eq_some_iff.1 hget).1
      exact hnone i hi ((source_iff hlanes hi).2 ⟨hget, hlast⟩)
    · exact hkept.component?_eq hr j

/-! ## Writing in place -/

/-- Converts a component of a value into a lane of the target in the batch. -/
def storeLane (it : Interpreter) (chain : LiveChain) (target : String) (value : Register)
    (p : Nat × Nat) : Action Unit := do
  let batch ← get
  let dst ← ofExcept (batch.register target)
  let dst ← ofExcept (it.writeLane chain target value dst p)
  set { batch with store := batch.store.put target dst }

/-- An assignment that stores each component as soon as it is converted, so that a failure would
leave those before it in the batch. -/
def assignInPlace (it : Interpreter) (chain : LiveChain) (target : String)
    (mask : Option (List UInt8)) (value : Register) : Action Unit := do
  declareTarget target mask value.type
  let batch ← get
  let dst ← ofExcept (batch.register target)
  let lanes ← ofExcept (targetLanes target mask dst value)
  lanes.zipIdx.forM (it.storeLane chain target value)

theorem run_storeLane (hdst : b.store.get? target = some dst) {p : Nat × Nat} {next : Register}
    (h : it.writeLane c target value dst p = .ok next) :
    (it.storeLane c target value p).run b =
      .ok () { b with store := b.store.put target next } := by
  rw [storeLane, run_get_bind, Batch.register_eq_ok.2 hdst, run_ofExcept_bind]
  dsimp only
  rw [h]
  rfl

/-- Components stored one by one are there in the end as if the target had been stored once. -/
theorem run_forM_storeLane (hnames : b.store.Ascending) (hdst : b.store.get? target = some dst)
    {lanes : List (Nat × Nat)} {written : Register}
    (h : lanes.foldlM (it.writeLane c target value) dst = .ok written) :
    (lanes.forM (it.storeLane c target value)).run b =
      .ok () { b with store := b.store.put target written } := by
  induction lanes generalizing b dst with
  | nil =>
    cases h
    rw [hnames.put_self hdst]
    rfl
  | cons p lanes ih =>
    rw [List.foldlM_cons] at h
    obtain ⟨next, hnext, h⟩ := Outcome.bind_eq_ok.1 h
    have hrest := ih (b := { b with store := b.store.put target next }) (hnames.put target next)
      (Store.get?_put_self ..) h
    rw [List.forM, run_bind_of_ok (run_storeLane hdst hnext)]
    exact hrest.trans (by rw [Store.put_put])

/-- It does not show whether components are stored one by one. -/
theorem run_assignInPlace (hb : b.Sound) (hnames : b.store.Ascending) (hc : c.Closed)
    (hrows : c.rows = b.rows) (hvalue : value.Spans c.rows) :
    (it.assignInPlace c target mask value).run b = (it.assign c target mask value).run b := by
  cases hdeclare : (declareTarget target mask value.type).run b with
  | error f mid =>
    rw [assignInPlace, assign, run_bind_of_error hdeclare, run_bind_of_error hdeclare]
  | ok _ mid =>
    have hmid := ascending_declareTarget hb hnames (.ok _ hdeclare)
    obtain ⟨dst, hdst, -⟩ := exists_target hb hdeclare
    rw [run_assign hdeclare hdst, assignInPlace, run_bind_of_ok hdeclare, run_get_bind,
      Batch.register_eq_ok.2 hdst, run_ofExcept_bind]
    dsimp only
    rw [run_ofExcept_bind]
    cases hlanes : targetLanes target mask dst value with
    | error f => rfl
    | ok lanes =>
      obtain ⟨written, hwritten⟩ := exists_written it hb hc hrows hvalue hdeclare hdst hlanes
      dsimp only
      rw [run_forM_storeLane hmid hdst (writeLanes_eq it c target value lanes dst ▸ hwritten),
        Outcome.ok_bind, hwritten]

/-! ## Statements -/

/-- An assignment happens as a whole or not at all, under any chain of rows of the batch. If it
fails, the batch is unchanged. If it succeeds, the value that is assigned is that of the expression
before the statement, and nothing else has changed. Storing the components one by one instead makes
no difference, whether the statement fails or not. -/
theorem assign_atomic {registry : Registry Implementation}
    (hregistry : Builtin.standard = .ok registry) (config : Config) (hb : b.Reachable)
    (hc : c.Built) (hrows : c.rows = b.rows) (target : String) (mask : Option (List UInt8))
    (e : Expr) :
    let it : Interpreter := ⟨registry, config⟩
    (∀ f b', (it.execStmt c (.assign target mask e)).run b = .error f b' → b' = b) ∧
      (∀ c' b', (it.execStmt c (.assign target mask e)).run b = .ok c' b' → c' = c ∧
        ∃ value old new, it.eval b c e = .ok value ∧
          Assigned c b b' target mask value old new) ∧
      ∀ value, it.eval b c e = .ok value →
        (it.assignInPlace c target mask value).run b =
          (it.assign c target mask value).run b := by
  intro it
  have hsound := hb.sound
  have hclosed := hc.canonical.closed
  have hspans : ∀ value, it.eval b c e = .ok value → value.Spans c.rows := fun value hvalue =>
    (spans_of_eval (catalogued_of_standard hregistry config) hsound hc.canonical hrows hvalue).2
  refine ⟨fun f b' h => ?_, fun c' b' h => ?_, fun value hvalue => ?_⟩
  · obtain ⟨-, rfl⟩ | ⟨value, hvalue, hassign⟩ := execStmt_assign_eq_error.1 h
    · rfl
    · exact assign_eq_error hsound hclosed hrows (hspans value hvalue) hassign
  · obtain ⟨value, hvalue, hassign, rfl⟩ := execStmt_assign_eq_ok.1 h
    obtain ⟨old, new, hassigned⟩ :=
      assigned_of_assign hsound hclosed (hspans value hvalue) hassign
    exact ⟨rfl, value, old, new, hvalue, hassigned⟩
  · exact run_assignInPlace hsound hb.ascending hclosed hrows (hspans value hvalue)

theorem assign_atomic_swapped :
    let it : Interpreter := ⟨Builtin.standardRegistry, .standard⟩
    let v : Expr := .var "v" .bvec2
    ∃ b c b', b.Reachable ∧ c.Built ∧ c.rows = b.rows ∧ c.isEmpty = false ∧
      (it.execStmt c (.assign "v" (some [1, 0]) v)).run b = .ok c b' ∧
      (∃ value old new, it.eval b c v = .ok value ∧
        Assigned c b b' "v" (some [1, 0]) value old new) ∧
      ∃ f, (it.execStmt c (.assign "v" (some [0, 9]) v)).run b = .error f b := by
  intro it v
  let input : Register :=
    ⟨.bvec2, 3, [⟨.bool, #[true, true, true]⟩, ⟨.bool, #[false, true, false]⟩]⟩
  let b : Batch :=
    { Batch.ofChain (.build 3 [0, 1, 2]) with store := (Store.new 3).put "v" input }
  let c : LiveChain := .build 3 [0, 2]
  have hinput : input.WellFormed :=
    ⟨rfl, by simp [input, ShaderType.kind?], by simp [input, Lane.rows]⟩
  have hb : b.Reachable := .setInput (.new (by exact rfl : Batch.new 3 = .ok _)) hinput rfl
  have hc : c.Built := .ofMask (by exact rfl : LiveChain.ofMask #[true, false, true] = .ok c)
  have hlive : c.isEmpty = false := by decide +kernel
  obtain ⟨b', hblock, -⟩ := Stateful.exists_run_eq_ok (s := b) (P := fun _ => true)
    (x := it.execBlock c [.assign "v" (some [1, 0]) v]) (by decide +kernel)
  obtain ⟨c', b', hrun, -⟩ := (execBlock_cons_eq_ok hlive).1 hblock
  obtain ⟨f, b'', hfail, -⟩ := Stateful.exists_run_eq_error (s := b) (P := fun _ _ => true)
    (x := it.execStmt c (.assign "v" (some [0, 9]) v)) (by decide +kernel)
  have hwhole := fun mask =>
    assign_atomic Builtin.standard_eq_ok .standard hb hc rfl "v" mask v
  obtain ⟨rfl, hassigned⟩ := (hwhole _).2.1 c' b' hrun
  have hunchanged := (hwhole _).1 f b'' hfail
  rw [hunchanged] at hfail
  exact ⟨b, c, b', hb, hc, rfl, hlive, hrun, hassigned, f, hfail⟩

end Interpreter

end BatchShader
