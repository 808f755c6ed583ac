import BatchShader.Proofs.Interpreter.Statement

/-
  The meaning of a run, row by row.

  `Batch.RowOf r b b₁`: the one-row batch `b₁` is what row `r` of the batch `b` looks like to a run
  on it alone. It may lack variables that `b` has; those hold zero at row `r`. `RowEvaluates` and
  `RowExecutes` say what becomes of a successful computation on `b` when it is done on `b₁`: it
  succeeds too, with row `r` of the result, or it meets a variable that only other rows declared.

  Expressions, assignments, statements and blocks are followed one after the other; where a chain
  does not visit row `r`, the frame of what is done under it shows that `b₁` stays the row of `b`.
-/

namespace BatchShader

open Stateful (Ends)

/-! ## Chains of one row -/

namespace LiveChain

variable {c : LiveChain} {r : Nat}

/-- The chain of one row, which is live if row `r` is. -/
def atRow (c : LiveChain) (r : Nat) : LiveChain :=
  if r ∈ c.visited then .single else LiveChain.single.cleared

theorem atRow_of_mem (h : r ∈ c.visited) : c.atRow r = .single := if_pos h

theorem atRow_of_not_mem (h : r ∉ c.visited) : c.atRow r = LiveChain.single.cleared := if_neg h

theorem mem_visited_atRow {i : Nat} : i ∈ (c.atRow r).visited ↔ i = 0 ∧ r ∈ c.visited := by
  by_cases h : r ∈ c.visited
  · rw [atRow_of_mem h, visited_single]
    simp [h]
  · rw [atRow_of_not_mem h]
    simp [h]

theorem canonical_atRow (c : LiveChain) (r : Nat) : (c.atRow r).Canonical := by
  unfold atRow
  split
  · exact canonical_single
  · exact canonical_cleared canonical_single.limit

@[simp] theorem rows_atRow (c : LiveChain) (r : Nat) : (c.atRow r).rows = 1 := by
  unfold atRow
  split <;> simp

/-- Filtering a chain, seen at one row. -/
theorem filter_atRow (hc : c.rows ≤ maxBatchRows) {p q : Nat → Bool} (hpq : q 0 = p r) :
    (c.atRow r).filter q = (c.filter p).atRow r := by
  have hlimit := (canonical_atRow c r).limit
  refine (canonical_filter hlimit q).ext (canonical_atRow _ r) ?_ ?_
  · rw [rows_filter, rows_atRow, rows_atRow]
  · rw [visited_filter hlimit]
    unfold atRow
    by_cases h : r ∈ c.visited
    · cases hp : p r with
      | true =>
        rw [if_pos h, if_pos (by rw [visited_filter hc, List.mem_filter]; exact ⟨h, hp⟩),
          visited_single]
        simp [hpq, hp]
      | false =>
        rw [if_pos h, if_neg (by rw [visited_filter hc, List.mem_filter]; simp [hp]),
          visited_single]
        simp [hpq, hp]
    · rw [if_neg h, if_neg (by rw [visited_filter hc, List.mem_filter]; simp [h])]
      simp

end LiveChain

/-! ## Batches of one row -/

namespace Batch

/-- The batch of one live row that holds row `r` of the variables. -/
def atRow (b : Batch) (r : Nat) : Batch where
  store := ⟨1, b.store.entries.map fun (x, R) => (x, R.atRow r)⟩
  chain := .single
  discarded := #[false]
  textures := b.textures

theorem get?_atRow (b : Batch) (r : Nat) (x : String) :
    (b.atRow r).store.get? x = (b.store.get? x).map (·.atRow r) := by
  unfold atRow Store.get?
  dsimp only
  induction b.store.entries with
  | nil => rfl
  | cons e l ih =>
    obtain ⟨y, R⟩ := e
    rw [List.map_cons, Store.lookup_entry, Store.lookup_entry, ih]
    split <;> rfl

/-- What row `r` of a batch looks like to a run on it alone. -/
structure RowOf (r : Nat) (b b₁ : Batch) : Prop where
  sound : b₁.Sound
  rows_eq : b₁.rows = 1
  textures_eq : b₁.textures = b.textures
  variable_eq : ∀ x R₁, b₁.store.get? x = some R₁ →
    ∃ R, b.store.get? x = some R ∧ R₁ = R.atRow r
  missing : ∀ x R, b₁.store.get? x = none → b.store.get? x = some R →
    R.atRow r = .zeroed R.type 1
  discarded_eq : b₁.isDiscarded 0 = b.isDiscarded r

variable {b b' b₁ : Batch} {c : LiveChain} {r : Nat}

theorem rowOf_atRow (hb : b.Sound) (hr : r ∈ b.chain.visited) : RowOf r b (b.atRow r) where
  sound := {
    chain := LiveChain.canonical_single
    store_rows := LiveChain.rows_single.symm
    wellFormed := fun x R₁ hR₁ => by
      rw [get?_atRow, Option.map_eq_some_iff] at hR₁
      obtain ⟨R, hR, rfl⟩ := hR₁
      obtain ⟨hwf, hrows⟩ := hb.wellFormed x R hR
      have hlt : r < R.rows := hrows ▸ LiveChain.lt_rows_of_mem_visited hr
      exact ⟨hwf.atRow hlt, LiveChain.rows_single.symm⟩
    size_discarded := LiveChain.rows_single.symm
    live := fun i hi => by
      rw [atRow, LiveChain.visited_single, List.mem_singleton] at hi
      subst hi
      rfl }
  rows_eq := LiveChain.rows_single
  textures_eq := rfl
  variable_eq x R₁ hR₁ := by
    rw [get?_atRow, Option.map_eq_some_iff] at hR₁
    obtain ⟨R, hR, rfl⟩ := hR₁
    exact ⟨R, hR, rfl⟩
  missing x R hnone hR := by
    rw [get?_atRow, hR] at hnone
    cases hnone
  discarded_eq := (hb.live r hr).symm

namespace RowOf

/-- What is done to other rows. -/
theorem frame (h : RowOf r b b₁) (hf : Frame c b b') (hr : r ∉ c.visited) (hlt : r < b.rows) :
    RowOf r b' b₁ where
  sound := h.sound
  rows_eq := h.rows_eq
  textures_eq := h.textures_eq.trans hf.textures_eq.symm
  variable_eq x R₁ hR₁ := by
    obtain ⟨R, hR, rfl⟩ := h.variable_eq x R₁ hR₁
    obtain ⟨R', hR', hkept⟩ := hf.kept x R hR
    exact ⟨R', hR', (hkept.atRow_eq r hr).symm⟩
  missing x R' hnone hR' := by
    obtain ⟨R, hR, hrow⟩ | ⟨-, hzero⟩ := hf.atRow_eq hr hlt hR'
    · have htype := congrArg Register.type hrow
      rw [hrow, h.missing x R hnone hR]
      exact congrArg (Register.zeroed · 1) htype.symm
    · exact hzero
  discarded_eq := h.discarded_eq.trans (hf.discarded_eq r hr).symm

/-- What is written to a variable. -/
theorem put (h : RowOf r b b₁) {x : String} {R : Register} (hR : R.WellFormed)
    (hlt : r < R.rows) :
    RowOf r { b with store := b.store.put x R } { b₁ with store := b₁.store.put x (R.atRow r) }
    where
  sound := h.sound.put x (hR.atRow hlt) h.rows_eq.symm
  rows_eq := h.rows_eq
  textures_eq := h.textures_eq
  variable_eq y S₁ hS₁ := by
    dsimp only at hS₁ ⊢
    rw [Store.get?_put] at hS₁ ⊢
    split
    · next hy =>
      rw [if_pos hy] at hS₁
      exact ⟨R, rfl, (Option.some.inj hS₁).symm⟩
    · next hy =>
      rw [if_neg hy] at hS₁
      exact h.variable_eq y S₁ hS₁
  missing y S hnone hS := by
    dsimp only at hnone hS
    rw [Store.get?_put] at hnone hS
    split at hnone
    · cases hnone
    · next hy =>
      rw [if_neg hy] at hS
      exact h.missing y S hnone hS
  discarded_eq := h.discarded_eq

/-- A variable that only other rows have declared so far. -/
theorem declare (h : RowOf r b b₁) {x : String} {R : Register} (hnone : b₁.store.get? x = none)
    (hR : b.store.get? x = some R) : RowOf r b (Interpreter.declared b₁ x R.type) where
  sound := h.sound.put x (Register.zeroed_wellFormed R.type b₁.rows) rfl
  rows_eq := h.rows_eq
  textures_eq := h.textures_eq
  variable_eq y S₁ hS₁ := by
    dsimp only [Interpreter.declared] at hS₁
    rw [Store.get?_put] at hS₁
    split at hS₁
    · next hy =>
      subst hy
      rw [← Option.some.inj hS₁, h.rows_eq]
      exact ⟨R, hR, (h.missing y R hnone hR).symm⟩
    · exact h.variable_eq y S₁ hS₁
  missing y S hnone' hS := by
    dsimp only [Interpreter.declared] at hnone'
    rw [Store.get?_put] at hnone'
    split at hnone'
    · cases hnone'
    · exact h.missing y S hnone' hS
  discarded_eq := h.discarded_eq

theorem discard (h : RowOf r b b₁) (hb : b.Sound) (hlt : r < b.rows) :
    RowOf r (b.discard c) (b₁.discard (c.atRow r)) where
  sound := h.sound.discard _
  rows_eq := (rows_discard b₁ _).trans h.rows_eq
  textures_eq := h.textures_eq
  variable_eq := h.variable_eq
  missing := h.missing
  discarded_eq := by
    rw [isDiscarded_discard, isDiscarded_discard, h.discarded_eq, h.sound.size_discarded,
      h.rows_eq, hb.size_discarded]
    simp only [LiveChain.mem_visited_atRow, hlt, Nat.one_pos, true_and, and_true]

/-- The rows that go on, seen at one row. -/
theorem remaining (h : RowOf r b b₁) (hc : c.rows ≤ maxBatchRows) :
    b₁.remaining (c.atRow r) = (b.remaining c).atRow r :=
  LiveChain.filter_atRow hc (congrArg (!·) h.discarded_eq)

end RowOf

end Batch

namespace Interpreter

open Batch (RowOf Frame)

variable {it : Interpreter} {b b' b₁ : Batch} {c : LiveChain} {r : Nat} {α β : Type}

/-! ## Expressions -/

/-- A variable that only other rows have declared. -/
def DeclaredElsewhere (b b₁ : Batch) (x : String) : Prop :=
  b₁.store.contains x = false ∧ b.store.contains x = true

/-- The computation on one row gives `a`, or meets a variable that only other rows declared. -/
def RowEvaluates (b b₁ : Batch) (x : Outcome α) (a : α) : Prop :=
  x = .ok a ∨ ∃ v, x = Outcome.fail (.unknownVariable v) ∧ DeclaredElsewhere b b₁ v

theorem RowEvaluates.bind {x : Outcome α} {f : α → Outcome β} {a : α} {y : β}
    (hx : RowEvaluates b b₁ x a) (hf : RowEvaluates b b₁ (f a) y) :
    RowEvaluates b b₁ (x >>= f) y := by
  obtain rfl | ⟨v, rfl, hv⟩ := hx
  · exact hf
  · exact .inr ⟨v, rfl, hv⟩

theorem call_atRow (hit : it.Catalogued) (h₁ : RowOf r b b₁) (hc : b.Runs c)
    (hr : r ∈ c.visited) {name : String} {args : List Register} {t : ShaderType} {R : Register}
    (hargs : ∀ x ∈ args, x.WellFormed) (h : it.call b c name args t = .ok R) :
    it.call b₁ .single name (args.map (·.atRow r)) t = .ok (R.atRow r) := by
  obtain ⟨o, ho, h⟩ := call_eq_ok.1 h
  have hlt : r < b.rows := hc.lt_rows hr
  refine call_eq_ok.2 ⟨o, ?_, ?_⟩
  · rw [List.map_map]
    exact ho
  · rw [h₁.textures_eq, h₁.rows_eq, ← Register.atRow_zeroed hlt]
    have hrow := (hit o (Registry.mem_of_lookup ho)).rowWise
    exact hrow.atRow hc.canonical.closed hargs (Register.zeroed_wellFormed t b.rows) h hr
      it.config.paths

/-- A split, seen at one row. -/
theorem splitOn_atRow (hc : c.rows ≤ maxBatchRows) (hr : r ∈ c.visited) {cond : Register}
    {yes no : LiveChain} (h : splitOn c cond = .ok (yes, no)) :
    splitOn .single (cond.atRow r) = .ok (yes.atRow r, no.atRow r) := by
  obtain ⟨ht, column, hcolumn, hlt, rfl, rfl⟩ := splitOn_eq_ok h
  have hget : (rowSlice column r).getD 0 false = column.getD r false := by
    rw [Array.getD_eq_getD_getElem?, Array.getD_eq_getD_getElem?, getElem?_rowSlice_zero]
  rw [← LiveChain.filter_atRow hc (p := (column.getD · false))
      (q := ((rowSlice column r).getD · false)) hget,
    ← LiveChain.filter_atRow hc (p := fun row => !column.getD row false)
      (q := fun row => !(rowSlice column r).getD row false) (congrArg (!·) hget),
    LiveChain.atRow_of_mem hr]
  refine Outcome.check_eq_ok.2 ⟨not_not.2 ht, ?_⟩
  rw [Register.lane_atRow hcolumn, Outcome.ok_bind]
  refine if_pos ?_
  rw [LiveChain.visited_single, size_rowSlice (hlt r hr)]
  rfl

/-- An arm of a selection, seen at one row: it counts if the row takes it. -/
theorem selectArm_atRow (hc : c.Canonical) {e : Expr} {out R : Register}
    (heval : r ∈ c.visited → ∀ value, it.eval b c e = .ok value →
      RowEvaluates b b₁ (it.eval b₁ .single e) (value.atRow r))
    (h : it.selectArm b c e out = .ok R) :
    RowEvaluates b b₁ (it.selectArm b₁ (c.atRow r) e (out.atRow r)) (R.atRow r) := by
  by_cases hr : r ∈ c.visited
  · have hlive : c.isEmpty = false := hc.isEmpty_eq_false_iff.2 ⟨r, hr⟩
    rw [selectArm, hlive, if_neg Bool.false_ne_true] at h
    rw [LiveChain.atRow_of_mem hr]
    obtain ⟨value, hvalue, h⟩ := Outcome.bind_eq_ok.1 h
    exact (heval hr value hvalue).bind (.inl (mergeArm_atRow hc.closed h hr))
  · rw [(kept_selectArm hc.closed h).atRow_eq r hr, LiveChain.atRow_of_not_mem hr]
    exact .inl rfl

mutual

/-- An expression on one row: it has the value of the row. -/
theorem eval_atRow (hit : it.Catalogued) (h₁ : RowOf r b b₁) (hb : b.Sound) {c : LiveChain}
    (hc : b.Runs c) (hr : r ∈ c.visited) (e : Expr) {R : Register} (h : it.eval b c e = .ok R) :
    RowEvaluates b b₁ (it.eval b₁ .single e) (R.atRow r) := by
  have hlt : r < b.rows := hc.lt_rows hr
  have hclosed := hc.canonical.closed
  have hlimit := hc.canonical.limit
  match e with
  | .const v =>
    rw [eval] at h ⊢
    rw [← Except.ok.inj h, h₁.rows_eq, Register.atRow_splat hlt]
    exact .inl rfl
  | .var x t =>
    obtain ⟨hR, ht⟩ := eval_var_eq_ok.1 h
    cases hR₁ : b₁.store.get? x with
    | some R₁ =>
      obtain ⟨R', hR', rfl⟩ := h₁.variable_eq x R₁ hR₁
      obtain rfl : R = R' := Option.some.inj (hR.symm.trans hR')
      exact .inl (eval_var_eq_ok.2 ⟨hR₁, ht⟩)
    | none =>
      refine .inr ⟨x, ?_, Store.contains_eq_false_iff.2 hR₁, Store.contains_eq_true_iff.2 ⟨R, hR⟩⟩
      rw [eval, Batch.register, hR₁]
      rfl
  | .call name args t =>
    rw [eval] at h ⊢
    obtain ⟨Rs, hRs, h⟩ := Outcome.bind_eq_ok.1 h
    have hargs := evalAll_wellFormed hit hb hc args hRs
    exact (evalAll_atRow hit h₁ hb hc hr args hRs).bind
      (.inl (call_atRow hit h₁ hc hr (fun x hx => (hargs x hx).1) h))
  | .unary op x t =>
    rw [eval] at h ⊢
    obtain ⟨X, hX, h⟩ := Outcome.bind_eq_ok.1 h
    exact (eval_atRow hit h₁ hb hc hr x hX).bind
      (.inl (Sweep.unary_atRow (s := it.sweep c) hclosed hr it.config.paths h))
  | .binary op x y t =>
    rw [eval] at h ⊢
    obtain ⟨X, hX, h⟩ := Outcome.bind_eq_ok.1 h
    obtain ⟨Y, hY, h⟩ := Outcome.bind_eq_ok.1 h
    exact (eval_atRow hit h₁ hb hc hr x hX).bind <| (eval_atRow hit h₁ hb hc hr y hY).bind
      (.inl (Sweep.binary_atRow (s := it.sweep c) hclosed hr it.config.paths h))
  | .select cond yes no t =>
    obtain ⟨value, taken, notTaken, out, hvalue, hsplit, hyes, hno⟩ := eval_select_eq_ok.1 h
    have hsplit₁ := splitOn_atRow hlimit hr hsplit
    obtain ⟨-, _, -, -, rfl, rfl⟩ := splitOn_eq_ok hsplit
    have hfirst := selectArm_atRow (hc.filter _).canonical
      (fun hr _ h => eval_atRow hit h₁ hb (hc.filter _) hr yes h) hyes
    have hsecond := selectArm_atRow (hc.filter _).canonical
      (fun hr _ h => eval_atRow hit h₁ hb (hc.filter _) hr no h) hno
    rw [Register.atRow_zeroed hlt, ← h₁.rows_eq] at hfirst
    rw [eval_select]
    exact (eval_atRow hit h₁ hb hc hr cond hvalue).bind <|
      RowEvaluates.bind (.inl hsplit₁) (hfirst.bind hsecond)
  | .swizzle base indices t =>
    rw [eval] at h ⊢
    obtain ⟨X, hX, h⟩ := Outcome.bind_eq_ok.1 h
    exact (eval_atRow hit h₁ hb hc hr base hX).bind
      (.inl (Sweep.swizzle_atRow (s := it.sweep c) hclosed hr it.config.paths h))
  | .construct t args =>
    rw [eval] at h ⊢
    obtain ⟨Rs, hRs, h⟩ := Outcome.bind_eq_ok.1 h
    exact (evalAll_atRow hit h₁ hb hc hr args hRs).bind
      (.inl (Sweep.construct_atRow (s := it.sweep c) hclosed hr it.config.paths h))

theorem evalAll_atRow (hit : it.Catalogued) (h₁ : RowOf r b b₁) (hb : b.Sound) {c : LiveChain}
    (hc : b.Runs c) (hr : r ∈ c.visited) (es : List Expr) {Rs : List Register}
    (h : it.evalAll b c es = .ok Rs) :
    RowEvaluates b b₁ (it.evalAll b₁ .single es) (Rs.map (·.atRow r)) := by
  match es with
  | [] =>
    rw [evalAll] at h ⊢
    rw [← Except.ok.inj h]
    exact .inl rfl
  | e :: es =>
    rw [evalAll] at h ⊢
    obtain ⟨R, hR, h⟩ := Outcome.bind_eq_ok.1 h
    obtain ⟨Rs', hRs', h⟩ := Outcome.bind_eq_ok.1 h
    rw [← Except.ok.inj h]
    exact (eval_atRow hit h₁ hb hc hr e hR).bind <|
      (evalAll_atRow hit h₁ hb hc hr es hRs').bind (.inl rfl)

end

/-! ## Actions -/

/-- The action on one row gives `a` and leaves the row of `b'`, or it stops at a variable that only
other rows declared. -/
def RowExecutes (r : Nat) (b' b₁ : Batch) (x : Action α) (a : α) : Prop :=
  (∃ b₁', x.run b₁ = .ok a b₁' ∧ RowOf r b' b₁') ∨
    ∃ v b₁', x.run b₁ = .error (.error (.unknownVariable v)) b₁' ∧ DeclaredElsewhere b' b₁' v

/-- Variables stay declared. -/
theorem DeclaredElsewhere.frame {v : String} (h : DeclaredElsewhere b b₁ v)
    (hf : Frame c b b') : DeclaredElsewhere b' b₁ v := by
  obtain ⟨R, hR⟩ := Store.contains_eq_true_iff.1 h.2
  obtain ⟨R', hR', -⟩ := hf.kept v R hR
  exact ⟨h.1, Store.contains_eq_true_iff.2 ⟨R', hR'⟩⟩

theorem RowExecutes.bind {mid : Batch} {x : Action α} {f : α → Action β} {a : α} {y : β}
    (hx : RowExecutes r mid b₁ x a) (hframe : Frame c mid b')
    (hf : ∀ mid₁, RowOf r mid mid₁ → RowExecutes r b' mid₁ (f a) y) :
    RowExecutes r b' b₁ (x >>= f) y := by
  obtain ⟨mid₁, hx, hmid₁⟩ | ⟨v, mid₁, hx, hv⟩ := hx
  · obtain ⟨b₁', hrun, hrow⟩ | ⟨v, b₁', hrun, hv⟩ := hf mid₁ hmid₁
    · exact .inl ⟨b₁', Stateful.run_bind_eq_ok.2 ⟨a, mid₁, hx, hrun⟩, hrow⟩
    · exact .inr ⟨v, b₁', Stateful.run_bind_eq_error.2 (.inr ⟨a, mid₁, hx, hrun⟩), hv⟩
  · exact .inr ⟨v, mid₁, Stateful.run_bind_eq_error.2 (.inl hx), hv.frame hframe⟩

theorem RowExecutes.ofExcept_bind {x : Outcome α} {f : α → Action β} {a : α} {y : β}
    (hx : RowEvaluates b b₁ x a) (hframe : Frame c b b')
    (hf : RowExecutes r b' b₁ (f a) y) : RowExecutes r b' b₁ (ofExcept x >>= f) y := by
  obtain rfl | ⟨v, rfl, hv⟩ := hx
  · exact hf
  · exact .inr ⟨v, b₁, rfl, hv.frame hframe⟩

/-! ## Assignments -/

theorem writeLanes_atRow (hc : c.Closed) (hr : r ∈ c.visited) {target : String}
    {value dst R : Register} {lanes : List Nat}
    (h : it.writeLanes c target value lanes dst = .ok R) :
    it.writeLanes .single target (value.atRow r) lanes (dst.atRow r) = .ok (R.atRow r) := by
  refine Outcome.foldlM_map_state (φ := (Register.atRow · r)) (fun p _ dst R h => ?_) h
  dsimp only at h ⊢
  rw [Register.getElem?_lanes_atRow, Register.getElem?_lanes_atRow]
  split at h
  · next src old hsrc hold =>
    rw [hsrc, hold]
    exact Sweep.convertInto_atRow (s := it.sweep c) hc hr it.config.paths h
  · cases h

/-- The target of an assignment, seen at one row: it is there or it is declared, unless it was
declared by other rows and the assignment does not declare. -/
theorem declareTarget_atRow (h₁ : RowOf r b b₁) (hb : b.Sound) (hlt : r < b.rows)
    {target : String} {mask : Option (List UInt8)} {t : ShaderType} {mid : Batch}
    {dst : Register} (hrun : (declareTarget target mask t).run b = .ok () mid)
    (hdst : mid.store.get? target = some dst) (ht : mask = none → dst.type = t) :
    (∃ mid₁, (declareTarget target mask t).run b₁ = .ok () mid₁ ∧ RowOf r mid mid₁ ∧
        mid₁.store.get? target = some (dst.atRow r)) ∨
      (declareTarget target mask t).run b₁ = .error (.error (.unknownVariable target)) b₁ ∧
        DeclaredElsewhere b b₁ target := by
  have hput : ∀ {b : Batch} {x : String} {R : Register},
      (b.store.put x R).get? x = some R := by simp
  cases htarget : b₁.store.get? target with
  | some R₁ =>
    obtain ⟨R, hR, rfl⟩ := h₁.variable_eq target R₁ htarget
    have hcontains₁ := Store.contains_eq_true_iff.2 ⟨_, htarget⟩
    obtain ⟨-, rfl⟩ | ⟨hnone, -, -⟩ := (declareTarget_eq_ok hb).1 hrun
    · obtain rfl : dst = R := Option.some.inj (hdst.symm.trans hR)
      exact .inl ⟨b₁, (declareTarget_eq_ok h₁.sound).2 (.inl ⟨hcontains₁, rfl⟩), h₁, htarget⟩
    · rw [Store.contains_eq_false_iff.1 hnone] at hR
      cases hR
  | none =>
    have hcontains₁ := Store.contains_eq_false_iff.2 htarget
    obtain ⟨hcontains, rfl⟩ | ⟨hnone, rfl, rfl⟩ := (declareTarget_eq_ok hb).1 hrun
    · cases mask with
      | some indices =>
        exact .inr ⟨(declareTarget_eq_error h₁.sound).2 ⟨hcontains₁, rfl, rfl, rfl⟩,
          hcontains₁, hcontains⟩
      | none =>
        obtain rfl := ht rfl
        refine .inl ⟨declared b₁ target dst.type,
          (declareTarget_eq_ok h₁.sound).2 (.inr ⟨hcontains₁, rfl, rfl⟩),
          h₁.declare htarget hdst, ?_⟩
        rw [h₁.missing target dst htarget hdst, ← h₁.rows_eq]
        exact hput
    · obtain rfl : Register.zeroed t b.rows = dst := Option.some.inj (hput.symm.trans hdst)
      have hrow := h₁.put (x := target) (Register.zeroed_wellFormed t b.rows) hlt
      rw [Register.atRow_zeroed hlt, ← h₁.rows_eq] at hrow ⊢
      exact .inl ⟨declared b₁ target t,
        (declareTarget_eq_ok h₁.sound).2 (.inr ⟨hcontains₁, rfl, rfl⟩), hrow, hput⟩

/-- An unmasked assignment keeps the type of its target. -/
theorem type_eq_of_targetLanes {target : String} {dst value : Register} {lanes : List Nat}
    (h : targetLanes target none dst value = .ok lanes) : dst.type = value.type :=
  not_not.1 (Outcome.check_eq_ok.1 h).1

theorem assign_atRow (h₁ : RowOf r b b₁) (hb : b.Sound) (hc : b.Runs c) (hr : r ∈ c.visited)
    {target : String} {mask : Option (List UInt8)} {value : Register}
    (h : (it.assign c target mask value).run b = .ok () b') :
    RowExecutes r b' b₁ (it.assign .single target mask (value.atRow r)) () := by
  have hlt : r < b.rows := hc.lt_rows hr
  have hclosed := hc.canonical.closed
  obtain ⟨mid, dst, lanes, written, hdeclare, hdst, hlanes, hwritten, rfl⟩ := assign_eq_ok.1 h
  have hmid := (frame_declareTarget (c := c) hb (.ok _ hdeclare)).1
  have hput := Batch.frame_put hmid.sound hdst (kept_writeLanes hclosed hwritten)
  have ht : mask = none → dst.type = value.type := by
    rintro rfl
    exact type_eq_of_targetLanes hlanes
  obtain ⟨mid₁, hdeclare₁, hrow, hdst₁⟩ | ⟨herror, hv⟩ :=
    declareTarget_atRow h₁ hb hlt hdeclare hdst ht
  · have hkept := kept_writeLanes hclosed hwritten
    obtain ⟨hwf, hrows⟩ := hmid.sound.wellFormed target dst hdst
    have hltw : r < written.rows := by
      rw [hkept.rows_eq, hrows, hmid.rows_eq]
      exact hlt
    refine .inl ⟨_, assign_eq_ok.2 ⟨mid₁, _, lanes, written.atRow r, hdeclare₁, hdst₁, hlanes,
      writeLanes_atRow hclosed hr hwritten, rfl⟩, hrow.put (hkept.wellFormed hwf) hltw⟩
  · refine .inr ⟨target, b₁, ?_, (hv.frame hmid).frame hput⟩
    exact Stateful.run_bind_eq_error.2 (.inl herror)

/-! ## Statements -/

mutual

/-- A statement on one row: it does what it does to the row. -/
theorem execStmt_atRow (hit : it.Catalogued) {b b₁ : Batch} (h₁ : RowOf r b b₁) (hb : b.Sound)
    {c c' : LiveChain} (hc : b.Runs c) (hr : r ∈ c.visited) (s : Stmt) {b' : Batch}
    (h : (it.execStmt c s).run b = .ok c' b') :
    RowExecutes r b' b₁ (it.execStmt .single s) (c'.atRow r) := by
  have hlt : r < b.rows := hc.lt_rows hr
  have hlimit := hc.canonical.limit
  have hchain := execStmt_chain hb hc h
  have hframe := frame_execStmt hb hc s (.ok c' h)
  match s with
  | .assign target mask e =>
    obtain ⟨value, hvalue, hassign, rfl⟩ := execStmt_assign_eq_ok.1 h
    rw [execStmt, LiveChain.atRow_of_mem hr]
    refine RowExecutes.ofExcept_bind (eval_atRow hit h₁ hb hc hr e hvalue) hframe ?_
    exact (assign_atRow h₁ hb hc hr hassign).bind (.refl c' hframe.sound)
      fun b₁' h₁' => .inl ⟨b₁', rfl, h₁'⟩
  | .branch cond yes no =>
    obtain ⟨value, taken, notTaken, mid, hvalue, hsplit, hyes, hno, -⟩ :=
      execStmt_branch_eq_ok.1 h
    have hsplit₁ := splitOn_atRow hlimit hr hsplit
    obtain ⟨-, column, -, -, rfl, rfl⟩ := splitOn_eq_ok hsplit
    obtain ⟨hsound, hruns⟩ := runs_otherSide hb hc hyes
    have hltmid : r < mid.rows := by
      rw [(frame_execBlock hb (hc.filter _) yes (.ok _ hyes)).rows_eq]
      exact hlt
    have hlast := frame_execBlock hsound hruns no (.ok _ hno)
    rw [execStmt, hchain]
    refine RowExecutes.ofExcept_bind (eval_atRow hit h₁ hb hc hr cond hvalue) hframe ?_
    refine RowExecutes.ofExcept_bind (.inl hsplit₁) hframe ?_
    refine (execBlock_atRow hit h₁ hb (hc.filter _) hlt yes hyes).bind hlast fun mid₁ hmid₁ => ?_
    refine (execBlock_atRow hit hmid₁ hsound hruns hltmid no hno).bind
      (.refl c hlast.sound) fun b₁' h₁' => .inl ⟨b₁', ?_, h₁'⟩
    rw [← h₁'.remaining hlimit, LiveChain.atRow_of_mem hr]
    rfl
  | .discard =>
    obtain ⟨rfl, rfl⟩ := (execStmt_discard_eq_ok hb hc.rows_eq).1 h
    refine .inl ⟨_, (execStmt_discard_eq_ok h₁.sound ?_).2 ⟨?_, rfl⟩, ?_⟩
    · rw [h₁.rows_eq, LiveChain.rows_single]
    · exact LiveChain.atRow_of_not_mem (by simp)
    · rw [← LiveChain.atRow_of_mem hr]
      exact h₁.discard hb hlt

theorem execBlock_atRow (hit : it.Catalogued) {b b₁ : Batch} (h₁ : RowOf r b b₁) (hb : b.Sound)
    {c : LiveChain} (hc : b.Runs c) (hlt : r < b.rows) (body : List Stmt) {b' : Batch}
    (h : (it.execBlock c body).run b = .ok () b') :
    RowExecutes r b' b₁ (it.execBlock (c.atRow r) body) () := by
  by_cases hr : r ∈ c.visited
  · match body with
    | [] =>
      rw [execBlock_nil_eq_ok.1 h]
      exact .inl ⟨b₁, execBlock_nil_eq_ok.2 rfl, h₁⟩
    | s :: rest =>
      have hlive : c.isEmpty = false := hc.canonical.isEmpty_eq_false_iff.2 ⟨r, hr⟩
      obtain ⟨c', mid, hs, hrest⟩ := (execBlock_cons_eq_ok hlive).1 h
      obtain ⟨hsound, hruns⟩ := runs_execStmt hb hc hs
      have hlast := frame_execBlock hsound hruns rest (.ok _ hrest)
      have hltmid : r < mid.rows := by
        rw [(frame_execStmt hb hc s (.ok c' hs)).rows_eq]
        exact hlt
      rw [LiveChain.atRow_of_mem hr, execBlock]
      exact (execStmt_atRow hit h₁ hb hc hr s hs).bind hlast fun mid₁ hmid₁ =>
        execBlock_atRow hit hmid₁ hsound hruns hltmid rest hrest
  · have hframe := frame_execBlock hb hc body (.ok _ h)
    refine .inl ⟨b₁, execBlock_of_isEmpty ?_ body, h₁.frame hframe hr hlt⟩
    rw [LiveChain.atRow_of_not_mem hr]
    rfl

end

/-! ## Runs -/

/-- What a one-row batch says about row `r` of a batch: its variables have the values of the row,
variables that it lacks are zero there, and it is discarded if the row is. -/
structure ShowsRow (r : Nat) (b b₁ : Batch) : Prop where
  value_eq : ∀ x R₁, b₁.store.get? x = some R₁ →
    ∃ R, b.store.get? x = some R ∧ R₁.type = R.type ∧ R₁.rowValue? 0 = R.rowValue? r
  zero : ∀ x R, b₁.store.get? x = none → b.store.get? x = some R →
    R.rowValue? r = Value.zero? R.type
  discarded_eq : b₁.isDiscarded 0 = b.isDiscarded r

theorem showsRow_of_rowOf (h : RowOf r b b₁) (hb : b.Sound) (hlt : r < b.rows) :
    ShowsRow r b b₁ where
  value_eq x R₁ hR₁ := by
    obtain ⟨R, hR, rfl⟩ := h.variable_eq x R₁ hR₁
    have hltR : r < R.rows := (hb.wellFormed x R hR).2.symm ▸ hlt
    exact ⟨R, hR, rfl, R.rowValue?_atRow hltR⟩
  zero x R hnone hR := by
    have hltR : r < R.rows := (hb.wellFormed x R hR).2.symm ▸ hlt
    rw [← R.rowValue?_atRow hltR, h.missing x R hnone hR,
      Register.rowValue?_zeroed]
  discarded_eq := h.discarded_eq

/-- A run means the same row by row. If it succeeds on a batch, then on any live row alone it
succeeds too, and shows what the row has become; or it meets a variable that was new in the batch
and that only other rows declared. -/
theorem run_row_by_row {registry : Registry Implementation}
    (hregistry : Builtin.standard = .ok registry) (config : Config) (shader : Shader)
    {b b' : Batch} (hb : b.Reachable)
    (hrun : ((Interpreter.mk registry config).run shader).run b = .ok () b') {r : Nat}
    (hr : r ∈ b.chain.visited) :
    (∃ b₁, ((Interpreter.mk registry config).run shader).run (b.atRow r) = .ok () b₁ ∧
        ShowsRow r b' b₁) ∨
      ∃ x b₁, ((Interpreter.mk registry config).run shader).run (b.atRow r) =
          .error (.error (.unknownVariable x)) b₁ ∧ b.store.contains x = false ∧
        DeclaredElsewhere b' b₁ x := by
  have hsound := hb.sound
  have hrow := Batch.rowOf_atRow hsound hr
  have hlt : r < b.rows := LiveChain.lt_rows_of_mem_visited hr
  obtain ⟨hrows, body, hbody, hexec⟩ := run_eq_ok.1 hrun
  have hframe := frame_execBlock hsound hsound.runs body (.ok _ hexec)
  have hrows₁ : (b.atRow r).rows ≤ config.batchRows := by
    rw [hrow.rows_eq]
    change b.rows ≤ config.batchRows at hrows
    omega
  have hexec₁ := execBlock_atRow (catalogued_of_standard hregistry config) hrow hsound
    hsound.runs hlt body hexec
  rw [LiveChain.atRow_of_mem hr] at hexec₁
  obtain ⟨b₁, hrun₁, hrow₁⟩ | ⟨x, b₁, hrun₁, hx⟩ := hexec₁
  · refine .inl ⟨b₁, run_eq_ok.2 ⟨hrows₁, body, hbody, hrun₁⟩, ?_⟩
    exact showsRow_of_rowOf hrow₁ hframe.sound (hframe.rows_eq.symm ▸ hlt)
  · refine .inr ⟨x, b₁, ?_, ?_, hx⟩
    · rw [run_eq, if_neg (Nat.not_lt.2 hrows₁), hbody]
      exact hrun₁
    · cases hcontains : b.store.contains x with
      | false => rfl
      | true =>
        obtain ⟨R, hR⟩ := Store.contains_eq_true_iff.1 hcontains
        have hget : (b.atRow r).store.get? x = some (R.atRow r) := by
          rw [Batch.get?_atRow, hR]
          rfl
        have hframe₁ := frame_execBlock hrow.sound hrow.sound.runs body (.error _ hrun₁)
        obtain ⟨R₁, hR₁, -⟩ := hframe₁.kept x _ hget
        rw [Store.contains_eq_false_iff.1 hx.1] at hR₁
        cases hR₁

theorem run_row_by_row_discarded :
    let it : Interpreter := ⟨Builtin.standardRegistry, .standard⟩
    let shader : Shader := ⟨.fragment, [.branch (.var "lit" .bool)
      [.assign "shade" none (.unary .not (.var "lit" .bool) .bool)] [.discard]]⟩
    ∃ b b', b.Reachable ∧ 1 ∈ b.chain.visited ∧ (it.run shader).run b = .ok () b' ∧
      b'.isDiscarded 1 = true ∧
      ((∃ b₁, (it.run shader).run (b.atRow 1) = .ok () b₁ ∧ ShowsRow 1 b' b₁) ∨
        ∃ x b₁, (it.run shader).run (b.atRow 1) = .error (.error (.unknownVariable x)) b₁ ∧
          b.store.contains x = false ∧ DeclaredElsewhere b' b₁ x) := by
  intro it shader
  let lit : Register := ⟨.bool, 2, [⟨.bool, #[true, false]⟩]⟩
  let b : Batch := { Batch.ofChain (.build 2 [0, 1]) with store := (Store.new 2).put "lit" lit }
  have hlit : lit.WellFormed := ⟨rfl, by simp [lit, ShaderType.kind?], by simp [lit, Lane.rows]⟩
  have hb : b.Reachable := .setInput (.new (by exact rfl : Batch.new 2 = .ok _)) hlit rfl
  have hr : 1 ∈ b.chain.visited := by decide +kernel
  obtain ⟨b', hrun, hdiscarded⟩ := Stateful.exists_run_eq_ok (x := it.run shader) (s := b)
    (P := fun b' => b'.isDiscarded 1) (by decide +kernel)
  exact ⟨b, b', hb, hr, hrun, hdiscarded,
    run_row_by_row Builtin.standard_eq_ok .standard shader hb hrun hr⟩

end Interpreter

end BatchShader
