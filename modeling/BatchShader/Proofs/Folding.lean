import BatchShader.Proofs.Interpreter.Statement

/-
  Folding keeps the meaning of expressions and statements.

  A folded expression need not have the register of the expression it came from: a constant is the
  same on every row, an operation leaves zero where no row is live. `StandsFor e R` says what is
  kept: `e` has a register that agrees with `R` at live rows. Everything that reads a register reads
  live rows only, so a statement whose expressions are replaced in this way leaves the same batch.

  `foldExpr_standsFor` covers the two evaluators, operations on one row and constant forms;
  `execBlock_fold` covers the statements, where a branch may be replaced by the side it takes.
-/

namespace BatchShader

/-! ## Constants -/

namespace Register

theorem rowValue?_splat (v : Value) {n r : Nat} (hr : r < n) :
    (splat v n).rowValue? r = some v := by
  have hholds : (splat v n).Holds v.data.kind r v.data.elems := by
    refine ⟨by simp [splat, Components.toList], fun i e he => ?_⟩
    refine ⟨Array.replicate n e, lane_eq_ok.2 ?_, by simp [hr]⟩
    simp [splat, Components.toList, he, Lane.splat]
  rw [hholds.rowValue? v.kind_eq hr]
  exact v.new?_data

theorem mapM_rowValue?_splat (vs : List Value) {n r : Nat} (hr : r < n) :
    (vs.map (splat · n)).mapM (·.rowValue? r) = some vs := by
  rw [List.mapM_map]
  induction vs with
  | nil => rfl
  | cons v vs ih =>
    rw [List.mapM_cons, ih, Function.comp_apply, rowValue?_splat v hr]
    rfl

/-- A register that holds one value at all live rows, seen there. -/
theorem restrict_splat {R : Register} (hR : R.WellFormed) {c : LiveChain} {v : Value}
    (hlive : ∃ r, r ∈ c.visited) (h : ∀ r ∈ c.visited, R.rowValue? r = some v) :
    (splat v R.rows).restrict c = R.restrict c := by
  obtain ⟨r, hr⟩ := hlive
  have ht : v.type = R.type := type_of_rowValue? (h r hr)
  refine restrict_eq_restrict_iff.2
    ⟨(splat_wellFormed v R.rows).shape_eq hR ht rfl, fun r hr => ?_⟩
  rw [hR.atRow_eq_splat (h r hr), atRow_splat (lt_rows_of_rowValue? (h r hr))]

end Register

namespace Folding

open Interpreter

variable {it : Interpreter} {b : Batch} {c : LiveChain}

theorem eq_const_of_isConst {e : Expr} (h : e.isConst = true) : ∃ v, e = .const v := by
  cases e with
  | const v => exact ⟨v, rfl⟩
  | _ => cases h

theorem eq_const_of_value? {e : Expr} {v : Value} (h : e.value? = some v) : e = .const v := by
  cases e with
  | const v' =>
    cases h
    rfl
  | _ => cases h

theorem eq_map_const_of_all {es : List Expr} (h : es.all Expr.isConst = true) :
    ∃ vs : List Value, es = vs.map .const := by
  induction es with
  | nil => exact ⟨[], rfl⟩
  | cons e es ih =>
    rw [List.all_cons, Bool.and_eq_true] at h
    obtain ⟨v, rfl⟩ := eq_const_of_isConst h.1
    obtain ⟨vs, rfl⟩ := ih h.2
    exact ⟨v :: vs, rfl⟩

theorem eq_map_const_of_mapM {es : List Expr} {vs : List Value}
    (h : es.mapM Expr.value? = some vs) : es = vs.map .const := by
  induction es generalizing vs with
  | nil =>
    cases h
    rfl
  | cons e es ih =>
    rw [List.mapM_cons] at h
    obtain ⟨v, hv, h⟩ := Option.bind_eq_some_iff.1 h
    obtain ⟨vs', hvs', h⟩ := Option.bind_eq_some_iff.1 h
    cases h
    rw [List.map_cons, ← ih hvs', ← eq_const_of_value? hv]

theorem evalAll_const (it : Interpreter) (b : Batch) (c : LiveChain) (vs : List Value) :
    it.evalAll b c (vs.map .const) = .ok (vs.map (Register.splat · b.rows)) := by
  induction vs with
  | nil =>
    rw [List.map_nil, evalAll]
    rfl
  | cons v vs ih =>
    rw [List.map_cons, evalAll, eval, Outcome.ok_bind, ih]
    rfl

/-! ## Standing for a register -/

/-- The expression has a register that agrees with `R` at live rows. -/
def StandsFor (it : Interpreter) (b : Batch) (c : LiveChain) (e : Expr) (R : Register) : Prop :=
  ∃ R', it.eval b c e = .ok R' ∧ R'.restrict c = R.restrict c

theorem StandsFor.of_eval {e : Expr} {R : Register} (h : it.eval b c e = .ok R) :
    StandsFor it b c e R := ⟨R, h, rfl⟩

theorem StandsFor.const {R : Register} (hR : R.WellFormed ∧ R.rows = b.rows) {v : Value}
    (hlive : ∃ r, r ∈ c.visited) (h : ∀ r ∈ c.visited, R.rowValue? r = some v) :
    StandsFor it b c (.const v) R := by
  refine ⟨Register.splat v b.rows, by rw [eval], ?_⟩
  rw [← hR.2]
  exact Register.restrict_splat hR.1 hlive h

/-! ## Operations on constants -/

/-- An operation on constants has, at each live row, the register that it has on a batch of one
row. -/
theorem eval_atRow_of_operandsConstant {e : Expr} (he : operandsConstant e = true)
    (hc : b.Runs c) {r : Nat} (hr : r ∈ c.visited) {R : Register} (h : it.eval b c e = .ok R)
    (it₁ : Interpreter) (b₁ : Batch) (hb₁ : b₁.rows = 1) :
    it₁.eval b₁ .single e = .ok (R.atRow r) := by
  have hclosed := hc.canonical.closed
  have hlt : r < b.rows := hc.lt_rows hr
  have hsplat : ∀ v : Value, Register.splat v b₁.rows = (Register.splat v b.rows).atRow r :=
    fun v => by rw [hb₁, Register.atRow_splat hlt]
  cases e with
  | unary op x t =>
    obtain ⟨v, rfl⟩ := eq_const_of_isConst he
    rw [eval, eval, Outcome.ok_bind] at h ⊢
    rw [hsplat]
    exact Sweep.unary_atRow (s := it.sweep c) hclosed hr it₁.config.paths h
  | binary op x y t =>
    obtain ⟨hx, hy⟩ := (Bool.and_eq_true _ _).mp he
    obtain ⟨v, rfl⟩ := eq_const_of_isConst hx
    obtain ⟨w, rfl⟩ := eq_const_of_isConst hy
    rw [eval, eval, eval, Outcome.ok_bind, Outcome.ok_bind] at h ⊢
    rw [hsplat, hsplat]
    exact Sweep.binary_atRow (s := it.sweep c) hclosed hr it₁.config.paths h
  | swizzle base indices t =>
    obtain ⟨v, rfl⟩ := eq_const_of_isConst he
    rw [eval, eval, Outcome.ok_bind] at h ⊢
    rw [hsplat]
    exact Sweep.swizzle_atRow (s := it.sweep c) hclosed hr it₁.config.paths h
  | construct t args =>
    obtain ⟨-, hargs⟩ := (Bool.and_eq_true _ _).mp he
    obtain ⟨vs, rfl⟩ := eq_map_const_of_all hargs
    rw [eval, evalAll_const, Outcome.ok_bind] at h ⊢
    have hmap : vs.map (Register.splat · b₁.rows) =
        (vs.map (Register.splat · b.rows)).map (·.atRow r) := by
      rw [List.map_map]
      exact List.map_congr_left fun v _ => hsplat v
    rw [hmap]
    exact Sweep.construct_atRow (s := it.sweep c) hclosed hr it₁.config.paths h
  | _ => cases he

theorem reduce_eq_ok {registry : Registry Implementation} {e e' : Expr} :
    reduce registry e = .ok e' ↔ ∃ R₁ v,
      (forConstants registry).eval (.ofChain .single) .single e = .ok R₁ ∧
        R₁.rowValue? 0 = some v ∧ e' = .const v := by
  rw [reduce, Batch.new_one, Outcome.ok_bind, Outcome.bind_eq_ok]
  refine exists_congr fun R₁ => ?_
  cases R₁.rowValue? 0 with
  | none => simp [Outcome.mismatch, Outcome.fail]
  | some v => simp [evaluate, Batch.ofChain, eq_comm]

/-- An operation on constants, reduced to its value. -/
theorem settle_standsFor (hit : it.Catalogued) (hb : b.Sound) (hc : b.Runs c)
    (hlive : ∃ r, r ∈ c.visited) {e e' : Expr} {R : Register}
    (hfold : settle it.registry e = .ok e') (h : it.eval b c e = .ok R) :
    StandsFor it b c e' R := by
  unfold settle at hfold
  split at hfold
  · next he =>
    obtain ⟨R₁, v, hR₁, hv, rfl⟩ := reduce_eq_ok.1 hfold
    obtain ⟨hwf, hrows⟩ := eval_wellFormed hit hb hc e h
    refine .const ⟨hwf, hrows⟩ hlive fun r hr => ?_
    have hlt : r < R.rows := by
      rw [hrows]
      exact hc.lt_rows hr
    have hrow := eval_atRow_of_operandsConstant he hc hr h (forConstants it.registry)
      (.ofChain .single) rfl
    obtain rfl : R₁ = R.atRow r := Except.ok.inj (hR₁.symm.trans hrow)
    rw [← R.rowValue?_atRow hlt, hv]
  · rw [← Except.ok.inj hfold]
    exact .of_eval h

/-! ## Calls -/

theorem foldCall_standsFor (hit : it.Catalogued) (hb : b.Sound) (hc : b.Runs c)
    (hlive : ∃ r, r ∈ c.visited) {name : String} {args : List Expr} {t : ShaderType} {e' : Expr}
    {R : Register} (hfold : foldCall it.registry name args t = .ok e')
    (h : it.eval b c (.call name args t) = .ok R) : StandsFor it b c e' R := by
  unfold foldCall at hfold
  split at hfold
  · rw [← Except.ok.inj hfold]
    exact .of_eval h
  next values hvalues =>
  obtain ⟨o, ho, hfold⟩ := Outcome.bind_eq_ok.1 hfold
  obtain ⟨result, hresult, hfold⟩ := Outcome.bind_eq_ok.1 hfold
  cases result with
  | none =>
    rw [← Except.ok.inj hfold]
    exact .of_eval h
  | some v =>
    rw [← Except.ok.inj hfold]
    refine .const (eval_wellFormed hit hb hc _ h) hlive fun r hr => ?_
    obtain rfl := eq_map_const_of_mapM hvalues
    rw [eval, evalAll_const, Outcome.ok_bind] at h
    obtain ⟨o', ho', hrun⟩ := call_eq_ok.1 h
    have htypes : (values.map (Register.splat · b.rows)).map Register.type =
        values.map Value.type := by
      rw [List.map_map]
      rfl
    rw [htypes, ho, Except.ok.injEq] at ho'
    subst ho'
    have hargs : ∀ x ∈ values.map (Register.splat · b.rows), x.WellFormed := fun x hx => by
      obtain ⟨w, -, rfl⟩ := List.mem_map.1 hx
      exact Register.splat_wellFormed w b.rows
    have hlt : r < b.rows := hc.lt_rows hr
    exact (hit o (Registry.mem_of_lookup ho)).rowValue?_eq hc.canonical.closed hargs
      (Register.zeroed_wellFormed t b.rows) hrun hr (Register.mapM_rowValue?_splat values hlt)
      hresult

/-! ## Conditions that are decided -/

/-- A constant condition splits a chain into all of it and nothing. -/
theorem splitOn_of_decided (hc : b.Runs c) {cond : Expr} {choice : Bool}
    (hchoice : cond.decided? = some choice) {R : Register} (hcond : StandsFor it b c cond R)
    {yes no : LiveChain} (h : splitOn c R = .ok (yes, no)) :
    yes = (if choice then c else c.cleared) ∧ no = (if choice then c.cleared else c) := by
  obtain ⟨v, hv, hchoice⟩ := Option.bind_eq_some_iff.1 hchoice
  obtain ⟨bits, hbits, hchoice⟩ := Option.bind_eq_some_iff.1 hchoice
  obtain rfl := eq_const_of_value? hv
  obtain ⟨R', hR', hsame⟩ := hcond
  rw [eval, Except.ok.injEq] at hR'
  subst hR'
  rw [← splitOn_congr hsame] at h
  obtain ⟨-, column, hcolumn, -, rfl, rfl⟩ := splitOn_eq_ok h
  have hget : ∀ r ∈ c.visited, column.getD r false = choice := fun r hr => by
    have hlt : r < b.rows := hc.lt_rows hr
    obtain ⟨t, ⟨k, elems⟩, hk, hlen⟩ := v
    unfold Components.as? at hbits
    split at hbits
    · next hkind =>
      dsimp only at hkind
      subst hkind
      cases hbits
      rw [Register.lane_eq_ok] at hcolumn
      obtain ⟨rest, rfl⟩ := List.head?_eq_some_iff.1 hchoice
      cases hcolumn
      simp [hlt]
    · cases hbits
  cases choice with
  | true =>
    exact ⟨hc.canonical.filter_eq_self hget,
      LiveChain.filter_eq_cleared fun r hr => by rw [hget r hr, Bool.not_true]⟩
  | false =>
    exact ⟨LiveChain.filter_eq_cleared hget,
      hc.canonical.filter_eq_self fun r hr => by rw [hget r hr, Bool.not_false]⟩

/-- The arm that every live row takes is the result at live rows. -/
theorem selectArm_taken (hit : it.Catalogued) (hb : b.Sound) (hc : b.Runs c)
    (hlive : ∃ r, r ∈ c.visited) {e : Expr} {t : ShaderType} {R : Register}
    (h : it.selectArm b c e (.zeroed t b.rows) = .ok R) :
    ∃ value, it.eval b c e = .ok value ∧ R.restrict c = value.restrict c := by
  rw [selectArm, hc.canonical.isEmpty_eq_false_iff.2 hlive, if_neg Bool.false_ne_true] at h
  obtain ⟨value, hvalue, h⟩ := Outcome.bind_eq_ok.1 h
  obtain ⟨hwf, hrows⟩ := eval_wellFormed hit hb hc e hvalue
  exact ⟨value, hvalue, mergeArm_copies hc.canonical.closed hwf
    (Register.zeroed_wellFormed t b.rows) hrows h⟩

theorem selectArm_cleared {e : Expr} {out R : Register}
    (h : it.selectArm b c.cleared e out = .ok R) : out = R := Except.ok.inj h

theorem selectArm_congr (hc : b.Runs c) {e e' : Expr} {out R : Register}
    (h : it.selectArm b c e out = .ok R)
    (he : (∃ r, r ∈ c.visited) → ∀ value, it.eval b c e = .ok value →
      StandsFor it b c e' value) : it.selectArm b c e' out = .ok R := by
  obtain ⟨hempty, rfl⟩ | ⟨hempty, value, hvalue, h⟩ := selectArm_eq_ok.1 h
  · exact selectArm_eq_ok.2 (.inl ⟨hempty, rfl⟩)
  · have hlive := hc.canonical.isEmpty_eq_false_iff.1 hempty
    obtain ⟨value', hvalue', hsame⟩ := he hlive value hvalue
    refine selectArm_eq_ok.2 (.inr ⟨hempty, value', hvalue', ?_⟩)
    rw [mergeArm_congr hc.canonical.closed hsame, h]

/-! ## Expressions -/

mutual

/-- A folded expression stands for the register of the expression. -/
theorem foldExpr_standsFor (hit : it.Catalogued) (hb : b.Sound) {c : LiveChain} (hc : b.Runs c)
    (hlive : ∃ r, r ∈ c.visited) (e : Expr) {e' : Expr}
    (hfold : foldExpr it.registry e = .ok e') {R : Register} (h : it.eval b c e = .ok R) :
    StandsFor it b c e' R := by
  have hclosed := hc.canonical.closed
  match e with
  | .const v =>
    rw [foldExpr] at hfold
    rw [← Except.ok.inj hfold]
    exact .of_eval h
  | .var x t =>
    rw [foldExpr] at hfold
    rw [← Except.ok.inj hfold]
    exact .of_eval h
  | .call name args t =>
    rw [foldExpr] at hfold
    obtain ⟨args', hargs', hfold⟩ := Outcome.bind_eq_ok.1 hfold
    refine foldCall_standsFor hit hb hc hlive hfold ?_
    rw [eval] at h ⊢
    obtain ⟨Rs, hRs, h⟩ := Outcome.bind_eq_ok.1 h
    obtain ⟨Rs', hRs', hsame⟩ := foldExprs_standsFor hit hb hc hlive args hargs' hRs
    have hwf := evalAll_wellFormed hit hb hc args hRs
    have hwf' := evalAll_wellFormed hit hb hc args' hRs'
    rw [hRs', Outcome.ok_bind]
    exact call_congr hit hclosed (fun x hx => (hwf x hx).1) (fun x hx => (hwf' x hx).1)
      hsame.symm h
  | .unary op x t =>
    rw [foldExpr] at hfold
    obtain ⟨x', hx', hfold⟩ := Outcome.bind_eq_ok.1 hfold
    refine settle_standsFor hit hb hc hlive hfold ?_
    rw [eval] at h ⊢
    obtain ⟨X, hX, h⟩ := Outcome.bind_eq_ok.1 h
    obtain ⟨X', hX', hsame⟩ := foldExpr_standsFor hit hb hc hlive x hx' hX
    rw [hX', Outcome.ok_bind, Sweep.unary_congr (s := it.sweep c) hclosed hsame, h]
  | .binary op x y t =>
    rw [foldExpr] at hfold
    obtain ⟨x', hx', hfold⟩ := Outcome.bind_eq_ok.1 hfold
    obtain ⟨y', hy', hfold⟩ := Outcome.bind_eq_ok.1 hfold
    refine settle_standsFor hit hb hc hlive hfold ?_
    rw [eval] at h ⊢
    obtain ⟨X, hX, h⟩ := Outcome.bind_eq_ok.1 h
    obtain ⟨Y, hY, h⟩ := Outcome.bind_eq_ok.1 h
    obtain ⟨X', hX', hsame⟩ := foldExpr_standsFor hit hb hc hlive x hx' hX
    obtain ⟨Y', hY', hsame'⟩ := foldExpr_standsFor hit hb hc hlive y hy' hY
    rw [hX', Outcome.ok_bind, hY', Outcome.ok_bind,
      Sweep.binary_congr (s := it.sweep c) hclosed hsame hsame', h]
  | .select cond yes no t =>
    rw [foldExpr] at hfold
    obtain ⟨cond', hcond', hfold⟩ := Outcome.bind_eq_ok.1 hfold
    obtain ⟨value, taken, notTaken, out, hvalue, hsplit, hyes, hno⟩ := eval_select_eq_ok.1 h
    have hstands := foldExpr_standsFor hit hb hc hlive cond hcond' hvalue
    split at hfold
    · next hchoice =>
      obtain ⟨rfl, rfl⟩ := splitOn_of_decided hc hchoice hstands hsplit
      obtain rfl := selectArm_cleared hno
      obtain ⟨arm, harm, hsame⟩ := selectArm_taken hit hb hc hlive hyes
      obtain ⟨R', hR', hsame'⟩ := foldExpr_standsFor hit hb hc hlive yes hfold harm
      exact ⟨R', hR', hsame'.trans hsame.symm⟩
    · next hchoice =>
      obtain ⟨rfl, rfl⟩ := splitOn_of_decided hc hchoice hstands hsplit
      obtain rfl := selectArm_cleared hyes
      obtain ⟨arm, harm, hsame⟩ := selectArm_taken hit hb hc hlive hno
      obtain ⟨R', hR', hsame'⟩ := foldExpr_standsFor hit hb hc hlive no hfold harm
      exact ⟨R', hR', hsame'.trans hsame.symm⟩
    · obtain ⟨yes', hyes', hfold⟩ := Outcome.bind_eq_ok.1 hfold
      obtain ⟨no', hno', hfold⟩ := Outcome.bind_eq_ok.1 hfold
      rw [← Except.ok.inj hfold]
      obtain ⟨value', hvalue', hsame⟩ := hstands
      have hsplit' := (splitOn_congr hsame).trans hsplit
      obtain ⟨-, _, -, -, rfl, rfl⟩ := splitOn_eq_ok hsplit
      refine .of_eval (eval_select_eq_ok.2 ⟨value', _, _, out, hvalue', hsplit', ?_, ?_⟩)
      · exact selectArm_congr (hc.filter _) hyes fun hlive _ h =>
          foldExpr_standsFor hit hb (hc.filter _) hlive yes hyes' h
      · exact selectArm_congr (hc.filter _) hno fun hlive _ h =>
          foldExpr_standsFor hit hb (hc.filter _) hlive no hno' h
  | .swizzle base indices t =>
    rw [foldExpr] at hfold
    obtain ⟨base', hbase', hfold⟩ := Outcome.bind_eq_ok.1 hfold
    refine settle_standsFor hit hb hc hlive hfold ?_
    rw [eval] at h ⊢
    obtain ⟨X, hX, h⟩ := Outcome.bind_eq_ok.1 h
    obtain ⟨X', hX', hsame⟩ := foldExpr_standsFor hit hb hc hlive base hbase' hX
    rw [hX', Outcome.ok_bind, Sweep.swizzle_congr (s := it.sweep c) hclosed hsame, h]
  | .construct t args =>
    rw [foldExpr] at hfold
    obtain ⟨args', hargs', hfold⟩ := Outcome.bind_eq_ok.1 hfold
    refine settle_standsFor hit hb hc hlive hfold ?_
    rw [eval] at h ⊢
    obtain ⟨Rs, hRs, h⟩ := Outcome.bind_eq_ok.1 h
    obtain ⟨Rs', hRs', hsame⟩ := foldExprs_standsFor hit hb hc hlive args hargs' hRs
    rw [hRs', Outcome.ok_bind, Sweep.construct_congr (s := it.sweep c) hclosed hsame, h]

theorem foldExprs_standsFor (hit : it.Catalogued) (hb : b.Sound) {c : LiveChain}
    (hc : b.Runs c) (hlive : ∃ r, r ∈ c.visited) (es : List Expr) {es' : List Expr}
    (hfold : foldExprs it.registry es = .ok es') {Rs : List Register}
    (h : it.evalAll b c es = .ok Rs) :
    ∃ Rs', it.evalAll b c es' = .ok Rs' ∧ Rs'.map (·.restrict c) = Rs.map (·.restrict c) := by
  match es with
  | [] =>
    rw [foldExprs] at hfold
    rw [← Except.ok.inj hfold]
    exact ⟨Rs, h, rfl⟩
  | e :: es =>
    rw [foldExprs] at hfold
    obtain ⟨e', he', hfold⟩ := Outcome.bind_eq_ok.1 hfold
    obtain ⟨es'', hes'', hfold⟩ := Outcome.bind_eq_ok.1 hfold
    rw [← Except.ok.inj hfold]
    rw [evalAll] at h ⊢
    obtain ⟨R, hR, h⟩ := Outcome.bind_eq_ok.1 h
    obtain ⟨Rs₀, hRs₀, h⟩ := Outcome.bind_eq_ok.1 h
    rw [← Except.ok.inj h]
    obtain ⟨R', hR', hsame⟩ := foldExpr_standsFor hit hb hc hlive e he' hR
    obtain ⟨Rs', hRs', hsame'⟩ := foldExprs_standsFor hit hb hc hlive es hes'' hRs₀
    refine ⟨R' :: Rs', ?_, by rw [List.map_cons, List.map_cons, hsame, hsame']⟩
    rw [hR', Outcome.ok_bind, hRs']
    rfl

end

/-! ## Statements -/

section Equations

variable {registry : Registry Implementation} {rest body' : List Stmt}

theorem foldBlock_assign_eq_ok {target : String} {mask : Option (List UInt8)} {e : Expr} :
    foldBlock registry (.assign target mask e :: rest) = .ok body' ↔
      ∃ e' rest', foldExpr registry e = .ok e' ∧ foldBlock registry rest = .ok rest' ∧
        body' = .assign target mask e' :: rest' := by
  rw [foldBlock, foldStmt]
  · cases foldExpr registry e with
    | error f => exact ⟨fun h => (nomatch h), fun ⟨_, _, h, _⟩ => nomatch h⟩
    | ok e' => cases foldBlock registry rest with
      | error f => exact ⟨fun h => (nomatch h), fun ⟨_, _, _, h, _⟩ => nomatch h⟩
      | ok rest' => exact ⟨fun h => ⟨e', rest', rfl, rfl, (Except.ok.inj h).symm⟩,
          fun ⟨_, _, he, hrest, h⟩ => by cases he; cases hrest; rw [h]; rfl⟩
  · exact fun _ _ _ h => nomatch h

theorem foldBlock_discard_eq_ok :
    foldBlock registry (.discard :: rest) = .ok body' ↔
      ∃ rest', foldBlock registry rest = .ok rest' ∧ body' = .discard :: rest' := by
  rw [foldBlock, foldStmt]
  · cases foldBlock registry rest with
    | error f => exact ⟨fun h => (nomatch h), fun ⟨_, h, _⟩ => nomatch h⟩
    | ok rest' => exact ⟨fun h => ⟨rest', rfl, (Except.ok.inj h).symm⟩,
        fun ⟨_, hrest, h⟩ => by cases hrest; rw [h]; rfl⟩
  · exact fun _ _ _ h => nomatch h

/-- A folded branch is the side it takes, if that is known, else a branch. -/
theorem foldBlock_branch_eq_ok {cond : Expr} {yes no : List Stmt}
    (h : foldBlock registry (.branch cond yes no :: rest) = .ok body') :
    ∃ cond' rest', foldExpr registry cond = .ok cond' ∧ foldBlock registry rest = .ok rest' ∧
      ((∃ choice side, cond'.decided? = some choice ∧
          foldBlock registry (if choice then yes else no) = .ok side ∧ body' = side ++ rest') ∨
        ∃ yes' no', cond'.decided? = none ∧ foldBlock registry yes = .ok yes' ∧
          foldBlock registry no = .ok no' ∧ body' = .branch cond' yes' no' :: rest') := by
  rw [foldBlock] at h
  obtain ⟨cond', hcond', h⟩ := Outcome.bind_eq_ok.1 h
  split at h
  · next hchoice =>
    obtain ⟨side, hside, h⟩ := Outcome.bind_eq_ok.1 h
    obtain ⟨rest', hrest', h⟩ := Outcome.bind_eq_ok.1 h
    exact ⟨cond', rest', hcond', hrest',
      .inl ⟨true, side, hchoice, hside, (Except.ok.inj h).symm⟩⟩
  · next hchoice =>
    obtain ⟨side, hside, h⟩ := Outcome.bind_eq_ok.1 h
    obtain ⟨rest', hrest', h⟩ := Outcome.bind_eq_ok.1 h
    exact ⟨cond', rest', hcond', hrest',
      .inl ⟨false, side, hchoice, hside, (Except.ok.inj h).symm⟩⟩
  · next hnone =>
    obtain ⟨yes', hyes', h⟩ := Outcome.bind_eq_ok.1 h
    obtain ⟨no', hno', h⟩ := Outcome.bind_eq_ok.1 h
    obtain ⟨rest', hrest', h⟩ := Outcome.bind_eq_ok.1 h
    exact ⟨cond', rest', hcond', hrest',
      .inr ⟨yes', no', hnone, hyes', hno', (Except.ok.inj h).symm⟩⟩

end Equations

theorem execStmt_assign_fold (hit : it.Catalogued) (hb : b.Sound) (hc : b.Runs c)
    (hlive : ∃ r, r ∈ c.visited) {target : String} {mask : Option (List UInt8)} {e e' : Expr}
    (hfold : foldExpr it.registry e = .ok e') {c' : LiveChain} {b' : Batch}
    (h : (it.execStmt c (.assign target mask e)).run b = .ok c' b') :
    (it.execStmt c (.assign target mask e')).run b = .ok c' b' := by
  obtain ⟨value, hvalue, hassign, hchain⟩ := execStmt_assign_eq_ok.1 h
  obtain ⟨value', hvalue', hsame⟩ := foldExpr_standsFor hit hb hc hlive e hfold hvalue
  refine execStmt_assign_eq_ok.2 ⟨value', hvalue', ?_, hchain⟩
  rwa [assign_congr hc.canonical.closed hsame]

/-- A branch on a constant condition executes the side that it takes. -/
theorem execStmt_branch_decided (hit : it.Catalogued) (hb : b.Sound) (hc : b.Runs c)
    (hlive : ∃ r, r ∈ c.visited) {cond cond' : Expr} {yes no : List Stmt}
    (hfold : foldExpr it.registry cond = .ok cond') {choice : Bool}
    (hchoice : cond'.decided? = some choice) {c' : LiveChain} {b' : Batch}
    (h : (it.execStmt c (.branch cond yes no)).run b = .ok c' b') :
    (it.execBlock c (if choice then yes else no)).run b = .ok () b' ∧ c' = b'.remaining c := by
  have hcleared : ∀ {body : List Stmt} {b b' : Batch},
      (it.execBlock c.cleared body).run b = .ok () b' → b' = b := fun h => by
    rw [execBlock_of_isEmpty rfl] at h
    cases h
    rfl
  obtain ⟨value, taken, notTaken, mid, hvalue, hsplit, hyes, hno, hchain⟩ :=
    execStmt_branch_eq_ok.1 h
  have hstands := foldExpr_standsFor hit hb hc hlive cond hfold hvalue
  obtain ⟨rfl, rfl⟩ := splitOn_of_decided hc hchoice hstands hsplit
  refine ⟨?_, hchain⟩
  cases choice with
  | true =>
    obtain rfl := hcleared hno
    exact hyes
  | false =>
    obtain rfl := hcleared hyes
    exact hno

/-- Folded statements leave the batch that the statements leave. -/
theorem execBlock_fold (hit : it.Catalogued) {b : Batch} (hb : b.Sound) {c : LiveChain}
    (hc : b.Runs c) (body : List Stmt) {body' : List Stmt}
    (hfold : foldBlock it.registry body = .ok body') {b' : Batch}
    (h : (it.execBlock c body).run b = .ok () b') :
    (it.execBlock c body').run b = .ok () b' := by
  cases hempty : c.isEmpty with
  | true =>
    rw [execBlock_of_isEmpty hempty] at h ⊢
    exact h
  | false =>
    have hlive := hc.canonical.isEmpty_eq_false_iff.1 hempty
    match body with
    | [] =>
      rw [foldBlock] at hfold
      rw [← Except.ok.inj hfold]
      exact h
    | .assign target mask e :: rest =>
      obtain ⟨c', mid, hs, hrest⟩ := (execBlock_cons_eq_ok hempty).1 h
      obtain ⟨hsound, hruns⟩ := runs_execStmt hb hc hs
      obtain ⟨e', rest', he', hrest', rfl⟩ := foldBlock_assign_eq_ok.1 hfold
      exact (execBlock_cons_eq_ok hempty).2 ⟨c', mid, execStmt_assign_fold hit hb hc hlive he' hs,
        execBlock_fold hit hsound hruns rest hrest' hrest⟩
    | .discard :: rest =>
      obtain ⟨c', mid, hs, hrest⟩ := (execBlock_cons_eq_ok hempty).1 h
      obtain ⟨hsound, hruns⟩ := runs_execStmt hb hc hs
      obtain ⟨rest', hrest', rfl⟩ := foldBlock_discard_eq_ok.1 hfold
      exact (execBlock_cons_eq_ok hempty).2 ⟨c', mid, hs,
        execBlock_fold hit hsound hruns rest hrest' hrest⟩
    | .branch cond yes no :: rest =>
      obtain ⟨c', mid, hs, hrest⟩ := (execBlock_cons_eq_ok hempty).1 h
      obtain ⟨hsound, hruns⟩ := runs_execStmt hb hc hs
      obtain ⟨cond', rest', hcond', hrest', hfold⟩ := foldBlock_branch_eq_ok hfold
      have hrest := execBlock_fold hit hsound hruns rest hrest' hrest
      obtain ⟨choice, side, hchoice, hside, rfl⟩ | ⟨yes', no', -, hyes', hno', rfl⟩ := hfold
      · -- the branch becomes its side, which hands on the chain that the branch handed on
        obtain ⟨htaken, rfl⟩ := execStmt_branch_decided hit hb hc hlive hcond' hchoice hs
        refine (execBlock_append hb hc).2 ⟨mid, ?_, hrest⟩
        cases choice with
        | true => exact execBlock_fold hit hb hc yes hside htaken
        | false => exact execBlock_fold hit hb hc no hside htaken
      · obtain ⟨value, taken, notTaken, half, hvalue, hsplit, hyes, hno, hchain⟩ :=
          execStmt_branch_eq_ok.1 hs
        obtain ⟨value', hvalue', hsame⟩ :=
          foldExpr_standsFor hit hb hc hlive cond hcond' hvalue
        have hsplit' := (splitOn_congr hsame).trans hsplit
        obtain ⟨-, _, -, -, rfl, rfl⟩ := splitOn_eq_ok hsplit
        obtain ⟨hsound', hruns'⟩ := runs_otherSide hb hc hyes
        refine (execBlock_cons_eq_ok hempty).2 ⟨c', mid, ?_, hrest⟩
        exact execStmt_branch_eq_ok.2 ⟨value', _, _, half, hvalue', hsplit',
          execBlock_fold hit hb (hc.filter _) yes hyes' hyes,
          execBlock_fold hit hsound' hruns' no hno' hno, hchain⟩

/-! ## Runs -/

/-- Folding keeps the meaning of every shader. If a body folds, and a run of it as it is succeeds,
then a run of the folded body, and a run that folds the body itself, leave the very same batch. -/
theorem run_fold {registry : Registry Implementation}
    (hregistry : Builtin.standard = .ok registry) (config : Config) (stage : Stage)
    {body body' : List Stmt} (hfold : foldBlock registry body = .ok body') {b b' : Batch}
    (hb : b.Reachable)
    (hrun : ((Interpreter.mk registry { config with foldConstants := false }).run
      ⟨stage, body⟩).run b = .ok () b') :
    ((Interpreter.mk registry { config with foldConstants := false }).run
        ⟨stage, body'⟩).run b = .ok () b' ∧
      ((Interpreter.mk registry { config with foldConstants := true }).run
        ⟨stage, body⟩).run b = .ok () b' := by
  obtain ⟨hrows, _, hbody, hexec⟩ := run_eq_ok.1 hrun
  cases hbody
  have hsound := hb.sound
  have hfolded := execBlock_fold (catalogued_of_standard hregistry _) hsound hsound.runs body
    hfold hexec
  refine ⟨run_eq_ok.2 ⟨hrows, body', rfl, hfolded⟩, run_eq_ok.2 ⟨hrows, body', hfold, ?_⟩⟩
  have halike : Alike (.mk registry { config with foldConstants := false })
      (.mk registry { config with foldConstants := true }) := ⟨rfl, rfl⟩
  rw [halike.execBlock_eq]
  exact hfolded

theorem run_fold_branch :
    let registry := Builtin.standardRegistry
    let two : Expr := .const ⟨.int, ⟨.int, [2]⟩, rfl, rfl⟩
    let body : List Stmt := [.branch (.const ⟨.bool, ⟨.bool, [true]⟩, rfl, rfl⟩)
      [.assign "sum" none (.binary .add two two .int)] [.discard]]
    ∃ body' b b', foldBlock registry body = .ok body' ∧ b.Reachable ∧
      ((Interpreter.mk registry { Config.standard with foldConstants := false }).run
        ⟨.fragment, body⟩).run b = .ok () b' ∧ b'.isDiscarded 0 = false ∧
      ((Interpreter.mk registry { Config.standard with foldConstants := false }).run
        ⟨.fragment, body'⟩).run b = .ok () b' ∧
      ((Interpreter.mk registry { Config.standard with foldConstants := true }).run
        ⟨.fragment, body⟩).run b = .ok () b' := by
  intro registry two body
  obtain ⟨body', hfold⟩ : ∃ body', foldBlock registry body = .ok body' := by
    have hok : (foldBlock registry body).isOk = true := by decide +kernel
    cases hbody : foldBlock registry body with
    | ok body' => exact ⟨body', rfl⟩
    | error e =>
      rw [hbody] at hok
      cases hok
  have hb : Batch.Reachable (.ofChain (.build 2 [0, 1])) :=
    .new (by exact rfl : Batch.new 2 = .ok _)
  obtain ⟨b', hrun, hlive⟩ := Stateful.exists_run_eq_ok
    (x := (Interpreter.mk registry { Config.standard with foldConstants := false }).run
      ⟨.fragment, body⟩)
    (s := .ofChain (.build 2 [0, 1])) (P := fun b' => !b'.isDiscarded 0) (by decide +kernel)
  obtain ⟨hfolded, hfolding⟩ := run_fold Builtin.standard_eq_ok .standard .fragment hfold hb hrun
  exact ⟨body', _, b', hfold, hb, hrun, by simpa using hlive, hfolded, hfolding⟩

end Folding

end BatchShader
