import BatchShader.Proofs.Interpreter.Shapes

/-
  What an expression reads of a batch.

  An expression reads the variables that it names, the number of rows and the textures
  (`eval_congr`), and of a variable it reads live rows only (`eval_agrees`). So it does not matter
  to an expression which rows have been discarded, nor what has been done to other rows.
-/

namespace BatchShader

namespace Expr

mutual

/-- The names of the variables that an expression reads. -/
def reads : Expr → List String
  | const _ => []
  | var x _ => [x]
  | call _ args _ => readsAll args
  | unary _ x _ => x.reads
  | binary _ l r _ => l.reads ++ r.reads
  | select cond yes no _ => cond.reads ++ yes.reads ++ no.reads
  | swizzle base _ _ => base.reads
  | construct _ args => readsAll args

/-- The names of the variables that several expressions read. -/
def readsAll : List Expr → List String
  | [] => []
  | e :: es => e.reads ++ readsAll es

end

end Expr

namespace Interpreter

variable {it : Interpreter} {b b' : Batch} {c : LiveChain}

/-! ## Variables by name -/

theorem call_batch (hrows : b'.rows = b.rows) (htextures : b'.textures = b.textures)
    (c : LiveChain) (name : String) (args : List Register) (t : ShaderType) :
    it.call b' c name args t = it.call b c name args t := by
  unfold call
  rw [hrows, htextures]

mutual

/-- Batches of one length and with the same textures give an expression the same outcome if they
have the variables in common that it names. -/
theorem eval_congr (hrows : b'.rows = b.rows) (htextures : b'.textures = b.textures)
    (c : LiveChain) (e : Expr) (h : ∀ x ∈ e.reads, b'.store.get? x = b.store.get? x) :
    it.eval b' c e = it.eval b c e := by
  match e with
  | .const v => rw [eval, eval, hrows]
  | .var x t =>
    have hx : b'.register x = b.register x := by
      rw [Batch.register, Batch.register, h x (List.mem_singleton_self x)]
    rw [eval, eval, hx]
  | .call name args t =>
    rw [eval, eval, evalAll_congr hrows htextures c args h]
    exact congrArg _ (funext fun Rs => call_batch hrows htextures c name Rs t)
  | .unary op x t => rw [eval, eval, eval_congr hrows htextures c x h]
  | .binary op x y t =>
    rw [Expr.reads, List.forall_mem_append] at h
    rw [eval, eval, eval_congr hrows htextures c x h.1, eval_congr hrows htextures c y h.2]
  | .select cond yes no t =>
    rw [Expr.reads, List.forall_mem_append, List.forall_mem_append] at h
    obtain ⟨⟨hcond, hyes⟩, hno⟩ := h
    have hyes : ∀ c, it.eval b' c yes = it.eval b c yes := fun c =>
      eval_congr hrows htextures c yes hyes
    have hno : ∀ c, it.eval b' c no = it.eval b c no := fun c =>
      eval_congr hrows htextures c no hno
    rw [eval_select, eval_select, eval_congr hrows htextures c cond hcond, hrows]
    simp only [selectArm, hyes, hno]
  | .swizzle base indices t => rw [eval, eval, eval_congr hrows htextures c base h]
  | .construct t args => rw [eval, eval, evalAll_congr hrows htextures c args h]

theorem evalAll_congr (hrows : b'.rows = b.rows) (htextures : b'.textures = b.textures)
    (c : LiveChain) (es : List Expr)
    (h : ∀ x ∈ Expr.readsAll es, b'.store.get? x = b.store.get? x) :
    it.evalAll b' c es = it.evalAll b c es := by
  match es with
  | [] => rw [evalAll, evalAll]
  | e :: es =>
    rw [Expr.readsAll, List.forall_mem_append] at h
    rw [evalAll, evalAll, eval_congr hrows htextures c e h.1,
      evalAll_congr hrows htextures c es h.2]

end

end Interpreter

/-! ## Discarded rows -/

namespace Batch

/-- The batch with no row discarded. -/
def revived (b : Batch) : Batch := { b with discarded := Array.replicate b.rows false }

variable {b : Batch} {c : LiveChain}

theorem isDiscarded_revived (b : Batch) (r : Nat) : b.revived.isDiscarded r = false := by
  by_cases hr : r < b.rows <;> simp [isDiscarded, revived, Array.getD, hr]

theorem Sound.revived (h : b.Sound) : b.revived.Sound where
  chain := h.chain
  store_rows := h.store_rows
  wellFormed := h.wellFormed
  size_discarded := Array.size_replicate
  live r _ := isDiscarded_revived b r

theorem runs_revived (hc : c.Canonical) (hrows : c.rows = b.rows) : b.revived.Runs c :=
  ⟨hc, hrows, fun r _ => isDiscarded_revived b r⟩

end Batch

/-- The register of an expression has the annotated type and the length of the batch, whether or not
rows of the chain have been discarded. -/
theorem Interpreter.shaped_of_eval {it : Interpreter} {b : Batch} {c : LiveChain}
    (hit : it.Catalogued) (hb : b.Sound) (hc : c.Canonical) (hrows : c.rows = b.rows) {e : Expr}
    {R : Register} (h : it.eval b c e = .ok R) : R.Shaped e.type b.rows := by
  have hsize : b.revived.rows = b.rows := rfl
  have hrevived : it.eval b.revived c e = it.eval b c e := eval_congr hsize rfl c e fun _ _ => rfl
  exact eval_shaped hit hb.revived (Batch.runs_revived hc hrows) (hrevived.trans h)

/-! ## Live rows -/

/-- The variables of `b` are in `b'` as well, and do not differ at live rows. -/
structure Batch.Agrees (c : LiveChain) (b b' : Batch) : Prop where
  rows_eq : b'.rows = b.rows
  textures_eq : b'.textures = b.textures
  variable_eq : ∀ x R, b.store.get? x = some R →
    ∃ R', b'.store.get? x = some R' ∧ R'.restrict c = R.restrict c

namespace Batch

variable {b b' : Batch} {c d : LiveChain}

theorem Agrees.refl (c : LiveChain) (b : Batch) : Agrees c b b :=
  ⟨rfl, rfl, fun _ R hR => ⟨R, hR, rfl⟩⟩

theorem Agrees.mono (h : Agrees c b b') (hd : ∀ r ∈ d.visited, r ∈ c.visited) :
    Agrees d b b' where
  rows_eq := h.rows_eq
  textures_eq := h.textures_eq
  variable_eq x R hR := by
    obtain ⟨R', hR', hsame⟩ := h.variable_eq x R hR
    obtain ⟨hshape, hrow⟩ := Register.restrict_eq_restrict_iff.1 hsame
    exact ⟨R', hR', Register.restrict_eq_restrict_iff.2 ⟨hshape, fun r hr => hrow r (hd r hr)⟩⟩

/-- What is done to other rows makes no difference at the rows of a chain. -/
theorem Frame.agrees (h : Frame d b b') (hd : ∀ r ∈ c.visited, r ∉ d.visited) :
    Agrees c b b' where
  rows_eq := h.rows_eq
  textures_eq := h.textures_eq
  variable_eq x R hR := by
    obtain ⟨R', hR', hkept⟩ := h.kept x R hR
    exact ⟨R', hR', Register.restrict_eq_restrict_iff.2
      ⟨hkept.shape_eq, fun r hr => hkept.atRow_eq r (hd r hr)⟩⟩

end Batch

namespace Interpreter

variable {it : Interpreter} {b b' : Batch} {c : LiveChain}

/-- An arm of a selection whose value does not differ at live rows. -/
theorem selectArm_agrees (hc : c.Closed) {e : Expr} {out R : Register}
    (heval : ∀ value, it.eval b c e = .ok value →
      ∃ value', it.eval b' c e = .ok value' ∧ value'.restrict c = value.restrict c)
    (h : it.selectArm b c e out = .ok R) : it.selectArm b' c e out = .ok R := by
  obtain hdone | ⟨hlive, value, hvalue, hmerge⟩ := selectArm_eq_ok.1 h
  · exact selectArm_eq_ok.2 (.inl hdone)
  · obtain ⟨value', hvalue', hsame⟩ := heval value hvalue
    rw [← mergeArm_congr hc hsame] at hmerge
    exact selectArm_eq_ok.2 (.inr ⟨hlive, value', hvalue', hmerge⟩)

mutual

/-- An expression that succeeds on a batch succeeds on one that agrees with it at live rows, and has
the same value at live rows. -/
theorem eval_agrees (hit : it.Catalogued) (hb : b.Sound) (hb' : b'.Sound) {c : LiveChain}
    (hc : b.Runs c) (hc' : b'.Runs c) (h : b.Agrees c b') (e : Expr) {R : Register}
    (hR : it.eval b c e = .ok R) :
    ∃ R', it.eval b' c e = .ok R' ∧ R'.restrict c = R.restrict c := by
  have hclosed := hc.canonical.closed
  match e with
  | .const v =>
    rw [eval] at hR ⊢
    rw [h.rows_eq]
    exact ⟨R, hR, rfl⟩
  | .var x t =>
    obtain ⟨hx, ht⟩ := eval_var_eq_ok.1 hR
    obtain ⟨R', hx', hsame⟩ := h.variable_eq x R hx
    refine ⟨R', eval_var_eq_ok.2 ⟨hx', ?_⟩, hsame⟩
    exact (congrArg Register.type hsame).trans ht
  | .call name args t =>
    rw [eval] at hR ⊢
    obtain ⟨Rs, hRs, hcall⟩ := Outcome.bind_eq_ok.1 hR
    obtain ⟨Rs', hRs', hsame⟩ := evalAll_agrees hit hb hb' hc hc' h args hRs
    have hargs := evalAll_wellFormed hit hb hc args hRs
    have hargs' := evalAll_wellFormed hit hb' hc' args hRs'
    rw [← call_batch h.rows_eq h.textures_eq] at hcall
    refine ⟨R, Outcome.bind_eq_ok.2 ⟨Rs', hRs', ?_⟩, rfl⟩
    exact call_congr hit hclosed (fun x hx => (hargs x hx).1) (fun x hx => (hargs' x hx).1)
      hsame.symm hcall
  | .unary op x t =>
    rw [eval] at hR ⊢
    obtain ⟨X, hX, hR⟩ := Outcome.bind_eq_ok.1 hR
    obtain ⟨X', hX', hsame⟩ := eval_agrees hit hb hb' hc hc' h x hX
    refine ⟨R, Outcome.bind_eq_ok.2 ⟨X', hX', ?_⟩, rfl⟩
    rw [Sweep.unary_congr (s := it.sweep c) hclosed hsame, hR]
  | .binary op x y t =>
    rw [eval] at hR ⊢
    obtain ⟨X, hX, hR⟩ := Outcome.bind_eq_ok.1 hR
    obtain ⟨Y, hY, hR⟩ := Outcome.bind_eq_ok.1 hR
    obtain ⟨X', hX', hsameX⟩ := eval_agrees hit hb hb' hc hc' h x hX
    obtain ⟨Y', hY', hsameY⟩ := eval_agrees hit hb hb' hc hc' h y hY
    refine ⟨R, Outcome.bind_eq_ok.2 ⟨X', hX', Outcome.bind_eq_ok.2 ⟨Y', hY', ?_⟩⟩, rfl⟩
    rw [Sweep.binary_congr (s := it.sweep c) hclosed hsameX hsameY, hR]
  | .select cond yes no t =>
    obtain ⟨value, taken, notTaken, out, hvalue, hsplit, hyes, hno⟩ := eval_select_eq_ok.1 hR
    obtain ⟨value', hvalue', hsame⟩ := eval_agrees hit hb hb' hc hc' h cond hvalue
    have hsplit' := (splitOn_congr hsame).trans hsplit
    obtain ⟨-, column, -, -, rfl, rfl⟩ := splitOn_eq_ok hsplit
    -- both batches still agree at the rows that take an arm
    have harm : ∀ (p : Nat → Bool), b.Agrees (c.filter p) b' := fun p =>
      h.mono (LiveChain.mem_of_mem_filter hc.canonical.limit)
    have hyes' := selectArm_agrees (hc.filter _).canonical.closed
      (fun _ hv => eval_agrees hit hb hb' (hc.filter _) (hc'.filter _) (harm _) yes hv) hyes
    have hno' := selectArm_agrees (hc.filter _).canonical.closed
      (fun _ hv => eval_agrees hit hb hb' (hc.filter _) (hc'.filter _) (harm _) no hv) hno
    rw [← h.rows_eq] at hyes'
    exact ⟨R, eval_select_eq_ok.2 ⟨value', _, _, out, hvalue', hsplit', hyes', hno'⟩, rfl⟩
  | .swizzle base indices t =>
    rw [eval] at hR ⊢
    obtain ⟨X, hX, hR⟩ := Outcome.bind_eq_ok.1 hR
    obtain ⟨X', hX', hsame⟩ := eval_agrees hit hb hb' hc hc' h base hX
    refine ⟨R, Outcome.bind_eq_ok.2 ⟨X', hX', ?_⟩, rfl⟩
    rw [Sweep.swizzle_congr (s := it.sweep c) hclosed hsame, hR]
  | .construct t args =>
    rw [eval] at hR ⊢
    obtain ⟨Rs, hRs, hR⟩ := Outcome.bind_eq_ok.1 hR
    obtain ⟨Rs', hRs', hsame⟩ := evalAll_agrees hit hb hb' hc hc' h args hRs
    refine ⟨R, Outcome.bind_eq_ok.2 ⟨Rs', hRs', ?_⟩, rfl⟩
    rw [Sweep.construct_congr (s := it.sweep c) hclosed hsame, hR]

theorem evalAll_agrees (hit : it.Catalogued) (hb : b.Sound) (hb' : b'.Sound) {c : LiveChain}
    (hc : b.Runs c) (hc' : b'.Runs c) (h : b.Agrees c b') (es : List Expr) {Rs : List Register}
    (hRs : it.evalAll b c es = .ok Rs) :
    ∃ Rs', it.evalAll b' c es = .ok Rs' ∧ Rs'.map (·.restrict c) = Rs.map (·.restrict c) := by
  match es with
  | [] =>
    rw [evalAll] at hRs ⊢
    exact ⟨Rs, hRs, rfl⟩
  | e :: es =>
    rw [evalAll] at hRs ⊢
    obtain ⟨R, hR, hRs⟩ := Outcome.bind_eq_ok.1 hRs
    obtain ⟨Rest, hRest, hRs⟩ := Outcome.bind_eq_ok.1 hRs
    obtain ⟨R', hR', hsame⟩ := eval_agrees hit hb hb' hc hc' h e hR
    obtain ⟨Rest', hRest', hsames⟩ := evalAll_agrees hit hb hb' hc hc' h es hRest
    refine ⟨R' :: Rest', ?_, ?_⟩
    · rw [hR', Outcome.ok_bind, hRest']
      rfl
    · rw [← Except.ok.inj hRs, List.map_cons, List.map_cons, hsame, hsames]

end

end Interpreter

end BatchShader
