import BatchShader.Proofs.Builtin.RowTexture
import BatchShader.Proofs.Folding

/-
  Folding reaches a normal form.

  `Reducible` says what folding should not leave behind at a node, `Settled` what it does leave. The
  second is stronger: of a call on constants it also says that the overload is there and has been
  tried. So it is the one that carries the inductions. Everything in a folded expression is settled
  (`foldExpr_settled`), and an expression in which everything is settled is folded to itself
  (`foldExpr_of_settled`); both go on to statements, where a branch that is decided is replaced by
  statements that are settled already.

  `foldExpr_const`: nothing but variables, texture lookups, empty constructors and conditions that
  are constants of the wrong kind keeps an expression from being a constant.
-/

namespace BatchShader

/-! ## Nodes -/

namespace Expr

mutual

/-- An expression and all expressions inside it. -/
def nodes : Expr → List Expr
  | const v => [const v]
  | var x t => [var x t]
  | call name args t => call name args t :: nodesAll args
  | unary op x t => unary op x t :: x.nodes
  | binary op l r t => binary op l r t :: (l.nodes ++ r.nodes)
  | select cond yes no t => select cond yes no t :: (cond.nodes ++ (yes.nodes ++ no.nodes))
  | swizzle base indices t => swizzle base indices t :: base.nodes
  | construct t args => construct t args :: nodesAll args

/-- Several expressions and all expressions inside them. -/
def nodesAll : List Expr → List Expr
  | [] => []
  | e :: es => e.nodes ++ nodesAll es

end

/-- A constant truth value, or a vector of them. -/
def IsBoolConst (e : Expr) : Prop := ∃ v : Value, e = const v ∧ v.type.kind? = some .bool

theorem exists_decided {v : Value} (h : v.type.kind? = some .bool) :
    ∃ choice, (const v).decided? = some choice := by
  obtain ⟨t, ⟨k, elems⟩, hk, hlength⟩ := v
  have hpos : 0 < elems.length := Nat.lt_of_lt_of_eq (Builtin.components_pos h) hlength.symm
  obtain rfl : k = .bool := Option.some.inj (hk.symm.trans h)
  obtain ⟨choice, rest, rfl⟩ := List.exists_cons_of_length_pos hpos
  exact ⟨choice, rfl⟩

theorem IsBoolConst.decided?_ne_none {e : Expr} (h : e.IsBoolConst) : e.decided? ≠ none := by
  obtain ⟨v, rfl, hv⟩ := h
  obtain ⟨choice, hchoice⟩ := exists_decided hv
  rw [hchoice]
  exact Option.some_ne_none choice

end Expr

namespace Stmt

mutual

/-- A statement and all statements inside it. -/
def nodes : Stmt → List Stmt
  | assign target mask e => [assign target mask e]
  | branch cond yes no => branch cond yes no :: (nodesAll yes ++ nodesAll no)
  | discard => [discard]

/-- Several statements and all statements inside them. -/
def nodesAll : List Stmt → List Stmt
  | [] => []
  | s :: rest => s.nodes ++ nodesAll rest

end

theorem nodesAll_append (l l' : List Stmt) : nodesAll (l ++ l') = nodesAll l ++ nodesAll l' := by
  induction l with
  | nil => rfl
  | cons s l ih => rw [List.cons_append, nodesAll, nodesAll, ih, List.append_assoc]

end Stmt

namespace Folding

variable (registry : Registry Implementation)

/-! ## Normal forms -/

/-- A node that amounts to a constant, or to one of its arms. -/
def Reducible : Expr → Prop
  | .unary _ x _ => x.isConst = true
  | .binary _ l r _ => l.isConst = true ∧ r.isConst = true
  | .swizzle base _ _ => base.isConst = true
  | .construct _ args => args ≠ [] ∧ ∀ a ∈ args, a.isConst = true
  | .call name args _ => (∀ a ∈ args, a.isConst = true) ∧
    ∃ o, registry.lookup name (args.map Expr.type) = .ok o ∧ o.body.constant.isImplemented = true
  | .select cond _ _ _ => cond.IsBoolConst
  | _ => False

/-- A statement with such a node in its expression or condition, or a branch that is decided. -/
def ReducibleStmt : Stmt → Prop
  | .assign _ _ e => ∃ n ∈ e.nodes, Reducible registry n
  | .branch cond _ _ => (∃ n ∈ cond.nodes, Reducible registry n) ∨ cond.IsBoolConst
  | .discard => False

/-- A node that folding leaves as it is. -/
def Settled : Expr → Prop
  | .call name args _ => ∀ values, args.mapM Expr.value? = some values →
    ∃ o, registry.lookup name (values.map Value.type) = .ok o ∧
      Builtin.evaluate o values = .ok none
  | .select cond _ _ _ => cond.decided? = none
  | e => operandsConstant e = false

/-- A statement that folding leaves as it is. -/
def SettledStmt : Stmt → Prop
  | .assign _ _ e => ∀ n ∈ e.nodes, Settled registry n
  | .branch cond _ _ => (∀ n ∈ cond.nodes, Settled registry n) ∧ cond.decided? = none
  | .discard => True

variable {registry}

/-- Only an overload without a constant form has no value on constants. -/
theorem noConstantForm_of_evaluate {o : Builtin} {values : List Value}
    (h : o.evaluate values = .ok none) : o.body.constant = .noConstantForm := by
  unfold Builtin.evaluate at h
  split at h
  · obtain ⟨_, -, h⟩ := Outcome.bind_eq_ok.1 h
    obtain ⟨_, -, h⟩ := Outcome.bind_eq_ok.1 h
    cases h
  · next hnone => exact hnone
  · cases h

theorem mapM_value?_const (vs : List Value) : (vs.map Expr.const).mapM Expr.value? = some vs := by
  induction vs with
  | nil => rfl
  | cons v vs ih =>
    rw [List.map_cons, List.mapM_cons, ih]
    rfl

theorem Settled.not_reducible {n : Expr} (h : Settled registry n) : ¬Reducible registry n := by
  intro hn
  cases n with
  | const | var => exact hn
  | unary op x t => exact Bool.false_ne_true (h.symm.trans hn)
  | swizzle base indices t => exact Bool.false_ne_true (h.symm.trans hn)
  | binary op l r t => exact Bool.false_ne_true (h.symm.trans (Bool.and_eq_true_iff.2 hn))
  | select cond yes no t => exact hn.decided?_ne_none h
  | construct t args =>
    obtain ⟨hne, hargs⟩ := hn
    refine Bool.false_ne_true (h.symm.trans (Bool.and_eq_true_iff.2 ⟨?_, List.all_eq_true.2 hargs⟩))
    cases args with
    | nil => exact absurd rfl hne
    | cons => rfl
  | call name args t =>
    obtain ⟨hargs, o, ho, himplemented⟩ := hn
    obtain ⟨vs, rfl⟩ := eq_map_const_of_all (List.all_eq_true.2 hargs)
    obtain ⟨o', ho', hnone⟩ := h vs (mapM_value?_const vs)
    rw [List.map_map] at ho
    obtain rfl : o = o' := Except.ok.inj (ho.symm.trans ho')
    rw [noConstantForm_of_evaluate hnone] at himplemented
    cases himplemented

/-! ## Folded expressions are settled -/

theorem settle_eq_ok {e e' : Expr} (h : settle registry e = .ok e') :
    (∃ v, e' = .const v) ∨ operandsConstant e = false ∧ e' = e := by
  unfold settle at h
  split at h
  · obtain ⟨-, v, -, -, rfl⟩ := reduce_eq_ok.1 h
    exact .inl ⟨v, rfl⟩
  · next he => exact .inr ⟨Bool.eq_false_iff.2 he, (Except.ok.inj h).symm⟩

theorem foldCall_eq_ok {name : String} {args : List Expr} {t : ShaderType} {e' : Expr}
    (h : foldCall registry name args t = .ok e') :
    (∃ v, e' = .const v) ∨ Settled registry (.call name args t) ∧ e' = .call name args t := by
  unfold foldCall at h
  split at h
  · next hnone =>
    exact .inr ⟨fun values hvalues => (nomatch hnone.symm.trans hvalues), (Except.ok.inj h).symm⟩
  · next values hvalues =>
    obtain ⟨o, ho, h⟩ := Outcome.bind_eq_ok.1 h
    obtain ⟨result, hresult, h⟩ := Outcome.bind_eq_ok.1 h
    cases result with
    | some v => exact .inl ⟨v, (Except.ok.inj h).symm⟩
    | none =>
      refine .inr ⟨fun values' hvalues' => ?_, (Except.ok.inj h).symm⟩
      obtain rfl : values = values' := Option.some.inj (hvalues.symm.trans hvalues')
      exact ⟨o, ho, hresult⟩

theorem settled_const (v : Value) : ∀ n ∈ (Expr.const v).nodes, Settled registry n := by
  rw [Expr.nodes, List.forall_mem_singleton]
  rfl

/-- An operation on settled operands, once settled itself. -/
theorem settled_of_settle {e e' : Expr} {operands : List Expr} (hnodes : e.nodes = e :: operands)
    (hsettled : operandsConstant e = false → Settled registry e)
    (hoperands : ∀ n ∈ operands, Settled registry n) (h : settle registry e = .ok e') :
    ∀ n ∈ e'.nodes, Settled registry n := by
  obtain ⟨v, rfl⟩ | ⟨he, rfl⟩ := settle_eq_ok h
  · exact settled_const v
  · rw [hnodes, List.forall_mem_cons]
    exact ⟨hsettled he, hoperands⟩

mutual

/-- Folding leaves nothing that it could fold. -/
theorem foldExpr_settled (e : Expr) {e' : Expr} (h : foldExpr registry e = .ok e') :
    ∀ n ∈ e'.nodes, Settled registry n := by
  match e with
  | .const v =>
    rw [foldExpr] at h
    rw [← Except.ok.inj h]
    exact settled_const v
  | .var x t =>
    rw [foldExpr] at h
    rw [← Except.ok.inj h, Expr.nodes, List.forall_mem_singleton]
    rfl
  | .call name args t =>
    rw [foldExpr] at h
    obtain ⟨args', hargs', h⟩ := Outcome.bind_eq_ok.1 h
    obtain ⟨v, rfl⟩ | ⟨hcall, rfl⟩ := foldCall_eq_ok h
    · exact settled_const v
    · rw [Expr.nodes, List.forall_mem_cons]
      exact ⟨hcall, foldExprs_settled args hargs'⟩
  | .unary op x t =>
    rw [foldExpr] at h
    obtain ⟨x', hx', h⟩ := Outcome.bind_eq_ok.1 h
    exact settled_of_settle (by rw [Expr.nodes]) id (foldExpr_settled x hx') h
  | .binary op l r t =>
    rw [foldExpr] at h
    obtain ⟨l', hl', h⟩ := Outcome.bind_eq_ok.1 h
    obtain ⟨r', hr', h⟩ := Outcome.bind_eq_ok.1 h
    exact settled_of_settle (by rw [Expr.nodes]) id
      (List.forall_mem_append.2 ⟨foldExpr_settled l hl', foldExpr_settled r hr'⟩) h
  | .select cond yes no t =>
    rw [foldExpr] at h
    obtain ⟨cond', hcond', h⟩ := Outcome.bind_eq_ok.1 h
    split at h
    · exact foldExpr_settled yes h
    · exact foldExpr_settled no h
    · next hnone =>
      obtain ⟨yes', hyes', h⟩ := Outcome.bind_eq_ok.1 h
      obtain ⟨no', hno', h⟩ := Outcome.bind_eq_ok.1 h
      rw [← Except.ok.inj h, Expr.nodes, List.forall_mem_cons, List.forall_mem_append,
        List.forall_mem_append]
      exact ⟨hnone, foldExpr_settled cond hcond', foldExpr_settled yes hyes',
        foldExpr_settled no hno'⟩
  | .swizzle base indices t =>
    rw [foldExpr] at h
    obtain ⟨base', hbase', h⟩ := Outcome.bind_eq_ok.1 h
    exact settled_of_settle (by rw [Expr.nodes]) id (foldExpr_settled base hbase') h
  | .construct t args =>
    rw [foldExpr] at h
    obtain ⟨args', hargs', h⟩ := Outcome.bind_eq_ok.1 h
    exact settled_of_settle (by rw [Expr.nodes]) id (foldExprs_settled args hargs') h

theorem foldExprs_settled (es : List Expr) {es' : List Expr}
    (h : foldExprs registry es = .ok es') : ∀ n ∈ Expr.nodesAll es', Settled registry n := by
  match es with
  | [] =>
    rw [foldExprs] at h
    rw [← Except.ok.inj h]
    exact List.forall_mem_nil _
  | e :: es =>
    rw [foldExprs] at h
    obtain ⟨e', he', h⟩ := Outcome.bind_eq_ok.1 h
    obtain ⟨es', hes', h⟩ := Outcome.bind_eq_ok.1 h
    rw [← Except.ok.inj h, Expr.nodesAll, List.forall_mem_append]
    exact ⟨foldExpr_settled e he', foldExprs_settled es hes'⟩

end

/-! ## Settled expressions are kept -/

theorem settle_of_settled {e : Expr} (h : operandsConstant e = false) :
    settle registry e = .ok e := by
  rw [settle, h]
  rfl

mutual

/-- What cannot be folded is folded to itself. -/
theorem foldExpr_of_settled (e : Expr) (h : ∀ n ∈ e.nodes, Settled registry n) :
    foldExpr registry e = .ok e := by
  match e with
  | .const v => rw [foldExpr]
  | .var x t => rw [foldExpr]
  | .call name args t =>
    rw [Expr.nodes, List.forall_mem_cons] at h
    rw [foldExpr, foldExprs_of_settled args h.2, Outcome.ok_bind, foldCall]
    cases hvalues : args.mapM Expr.value? with
    | none => rfl
    | some values =>
      obtain ⟨o, ho, hnone⟩ := h.1 values hvalues
      dsimp only
      rw [ho, Outcome.ok_bind, hnone, Outcome.ok_bind]
  | .unary op x t =>
    rw [Expr.nodes, List.forall_mem_cons] at h
    rw [foldExpr, foldExpr_of_settled x h.2, Outcome.ok_bind, settle_of_settled h.1]
  | .binary op l r t =>
    rw [Expr.nodes, List.forall_mem_cons, List.forall_mem_append] at h
    rw [foldExpr, foldExpr_of_settled l h.2.1, Outcome.ok_bind, foldExpr_of_settled r h.2.2,
      Outcome.ok_bind, settle_of_settled h.1]
  | .select cond yes no t =>
    rw [Expr.nodes, List.forall_mem_cons, List.forall_mem_append, List.forall_mem_append] at h
    obtain ⟨hnone, hcond, hyes, hno⟩ := h
    have hnone : cond.decided? = none := hnone
    rw [foldExpr, foldExpr_of_settled cond hcond, Outcome.ok_bind, hnone]
    dsimp only
    rw [foldExpr_of_settled yes hyes, Outcome.ok_bind, foldExpr_of_settled no hno]
    rfl
  | .swizzle base indices t =>
    rw [Expr.nodes, List.forall_mem_cons] at h
    rw [foldExpr, foldExpr_of_settled base h.2, Outcome.ok_bind, settle_of_settled h.1]
  | .construct t args =>
    rw [Expr.nodes, List.forall_mem_cons] at h
    rw [foldExpr, foldExprs_of_settled args h.2, Outcome.ok_bind, settle_of_settled h.1]

theorem foldExprs_of_settled (es : List Expr) (h : ∀ n ∈ Expr.nodesAll es, Settled registry n) :
    foldExprs registry es = .ok es := by
  match es with
  | [] => rw [foldExprs]
  | e :: es =>
    rw [Expr.nodesAll, List.forall_mem_append] at h
    rw [foldExprs, foldExpr_of_settled e h.1, Outcome.ok_bind, foldExprs_of_settled es h.2]
    rfl

end

/-! ## Statements -/

/-- The same for statements: a branch that is decided has been replaced by statements that are
folded already. -/
theorem foldBlock_settled (body : List Stmt) {body' : List Stmt}
    (h : foldBlock registry body = .ok body') :
    ∀ st ∈ Stmt.nodesAll body', SettledStmt registry st := by
  match body with
  | [] =>
    rw [foldBlock] at h
    rw [← Except.ok.inj h]
    exact List.forall_mem_nil _
  | .assign target mask e :: rest =>
    obtain ⟨e', rest', he', hrest', rfl⟩ := foldBlock_assign_eq_ok.1 h
    rw [Stmt.nodesAll, Stmt.nodes, List.forall_mem_append, List.forall_mem_singleton]
    exact ⟨foldExpr_settled e he', foldBlock_settled rest hrest'⟩
  | .discard :: rest =>
    obtain ⟨rest', hrest', rfl⟩ := foldBlock_discard_eq_ok.1 h
    rw [Stmt.nodesAll, Stmt.nodes, List.forall_mem_append, List.forall_mem_singleton]
    exact ⟨trivial, foldBlock_settled rest hrest'⟩
  | .branch cond yes no :: rest =>
    obtain ⟨cond', rest', hcond', hrest', h⟩ := foldBlock_branch_eq_ok h
    obtain ⟨choice, side, hchoice, hside, rfl⟩ | ⟨yes', no', hnone, hyes', hno', rfl⟩ := h
    · rw [Stmt.nodesAll_append, List.forall_mem_append]
      refine ⟨?_, foldBlock_settled rest hrest'⟩
      cases choice with
      | true => exact foldBlock_settled yes hside
      | false => exact foldBlock_settled no hside
    · rw [Stmt.nodesAll, Stmt.nodes, List.cons_append, List.forall_mem_cons,
        List.forall_mem_append, List.forall_mem_append]
      exact ⟨⟨foldExpr_settled cond hcond', hnone⟩,
        ⟨foldBlock_settled yes hyes', foldBlock_settled no hno'⟩, foldBlock_settled rest hrest'⟩

theorem foldBlock_of_settled (body : List Stmt)
    (h : ∀ st ∈ Stmt.nodesAll body, SettledStmt registry st) :
    foldBlock registry body = .ok body := by
  match body with
  | [] => rw [foldBlock]
  | .assign target mask e :: rest =>
    rw [Stmt.nodesAll, Stmt.nodes, List.forall_mem_append, List.forall_mem_singleton] at h
    exact foldBlock_assign_eq_ok.2
      ⟨e, rest, foldExpr_of_settled e h.1, foldBlock_of_settled rest h.2, rfl⟩
  | .discard :: rest =>
    rw [Stmt.nodesAll, Stmt.nodes, List.forall_mem_append] at h
    exact foldBlock_discard_eq_ok.2 ⟨rest, foldBlock_of_settled rest h.2, rfl⟩
  | .branch cond yes no :: rest =>
    rw [Stmt.nodesAll, Stmt.nodes, List.cons_append, List.forall_mem_cons,
      List.forall_mem_append, List.forall_mem_append] at h
    obtain ⟨⟨hcond, hnone⟩, ⟨hyes, hno⟩, hrest⟩ := h
    rw [foldBlock, foldExpr_of_settled cond hcond, Outcome.ok_bind, hnone]
    dsimp only
    rw [foldBlock_of_settled yes hyes, Outcome.ok_bind, foldBlock_of_settled no hno,
      Outcome.ok_bind, foldBlock_of_settled rest hrest]
    rfl

theorem SettledStmt.not_reducible {st : Stmt} (h : SettledStmt registry st) :
    ¬ReducibleStmt registry st := by
  cases st with
  | assign target mask e => exact fun ⟨n, hn, hreducible⟩ => (h n hn).not_reducible hreducible
  | branch cond yes no =>
    rintro (⟨n, hn, hreducible⟩ | hbool)
    · exact (h.1 n hn).not_reducible hreducible
    · exact hbool.decided?_ne_none h.2
  | discard => exact id

/-! ## Expressions without variables -/

/-- The names of the texture lookups. -/
def textureNames : List String :=
  [Builtin.Addressing.flat, .projective, .cube].flatMap Builtin.Addressing.names

theorem others_have_constantForm : ∀ line ∈ Builtin.trigonometry ++ Builtin.exponentials ++
    Builtin.commonFunctions ++ Builtin.geometry ++ Builtin.matrices ++ Builtin.relations,
    ∀ s, (line.2 s).constant ≠ .noConstantForm := by
  intro line hline s h
  simp only [Builtin.trigonometry, Builtin.exponentials, Builtin.commonFunctions,
    Builtin.geometry, Builtin.matrices, Builtin.relations] at hline
  fin_cases hline <;> cases h

theorem constantForm_of_lookup (hreg : Builtin.standard = .ok registry) {name : String}
    {params : List ShaderType} {o : Builtin} (ho : registry.lookup name params = .ok o)
    (hname : name ∉ textureNames) : o.body.constant ≠ .noConstantForm := by
  have hkey := Registry.key_of_lookup hreg ho
  obtain ⟨line, hline, d, hd, s, hs, rfl⟩ :=
    Registry.mem_of_build hreg (Registry.mem_of_lookup ho)
  rcases List.mem_append.1 hline with hother | hlookup
  · exact others_have_constantForm line hother s
  · obtain ⟨how, -, hfits⟩ := Builtin.textureLookups_lookUp line hlookup
    obtain ⟨hmem, -⟩ := Builtin.fits_of_lineFits hfits hd hs
    refine absurd (List.mem_flatMap.2 ⟨how, ?_, ?_⟩) hname
    · cases how <;> simp
    · have hsame : s.name = name := (Prod.ext_iff.1 hkey).1
      rwa [← hsame]

/-- A node that does not keep an expression from being a constant. -/
def Evaluable (registry : Registry Implementation) : Expr → Prop
  | .var _ _ => False
  | .call name _ _ => name ∉ textureNames
  | .construct _ args => args ≠ []
  | .select cond _ _ _ => ∀ v, foldExpr registry cond = .ok (.const v) → v.type.kind? = some .bool
  | _ => True

theorem const_of_settle {e e' : Expr} (he : operandsConstant e = true)
    (h : settle registry e = .ok e') : ∃ v, e' = .const v := by
  obtain ⟨v, rfl⟩ | ⟨hfalse, -⟩ := settle_eq_ok h
  · exact ⟨v, rfl⟩
  · exact absurd he (Bool.eq_false_iff.1 hfalse)

/-- A call on constants that is not a texture lookup is a constant. -/
theorem const_of_foldCall (hreg : Builtin.standard = .ok registry) {name : String}
    {vs : List Value} {t : ShaderType} {e' : Expr} (hname : name ∉ textureNames)
    (h : foldCall registry name (vs.map .const) t = .ok e') : ∃ v, e' = .const v := by
  obtain ⟨v, rfl⟩ | ⟨hsettled, -⟩ := foldCall_eq_ok h
  · exact ⟨v, rfl⟩
  · obtain ⟨o, ho, hnone⟩ := hsettled vs (mapM_value?_const vs)
    exact absurd (noConstantForm_of_evaluate hnone) (constantForm_of_lookup hreg ho hname)

mutual

/-- What can be folded at all and has nothing in it that varies is folded to a constant. -/
theorem foldExpr_const (hreg : Builtin.standard = .ok registry) (e : Expr) {e' : Expr}
    (he : ∀ n ∈ e.nodes, Evaluable registry n) (h : foldExpr registry e = .ok e') :
    ∃ v, e' = .const v := by
  match e with
  | .const v =>
    rw [foldExpr] at h
    exact ⟨v, (Except.ok.inj h).symm⟩
  | .var x t =>
    rw [Expr.nodes, List.forall_mem_singleton] at he
    exact he.elim
  | .call name args t =>
    rw [Expr.nodes, List.forall_mem_cons] at he
    rw [foldExpr] at h
    obtain ⟨args', hargs', h⟩ := Outcome.bind_eq_ok.1 h
    obtain ⟨vs, rfl, -⟩ := foldExprs_const hreg args he.2 hargs'
    exact const_of_foldCall hreg he.1 h
  | .unary op x t =>
    rw [Expr.nodes, List.forall_mem_cons] at he
    rw [foldExpr] at h
    obtain ⟨x', hx', h⟩ := Outcome.bind_eq_ok.1 h
    obtain ⟨v, rfl⟩ := foldExpr_const hreg x he.2 hx'
    exact const_of_settle rfl h
  | .binary op l r t =>
    rw [Expr.nodes, List.forall_mem_cons, List.forall_mem_append] at he
    rw [foldExpr] at h
    obtain ⟨l', hl', h⟩ := Outcome.bind_eq_ok.1 h
    obtain ⟨r', hr', h⟩ := Outcome.bind_eq_ok.1 h
    obtain ⟨v, rfl⟩ := foldExpr_const hreg l he.2.1 hl'
    obtain ⟨w, rfl⟩ := foldExpr_const hreg r he.2.2 hr'
    exact const_of_settle rfl h
  | .select cond yes no t =>
    rw [Expr.nodes, List.forall_mem_cons, List.forall_mem_append, List.forall_mem_append] at he
    obtain ⟨hkind, hcond, hyes, hno⟩ := he
    rw [foldExpr] at h
    obtain ⟨cond', hcond', h⟩ := Outcome.bind_eq_ok.1 h
    obtain ⟨v, rfl⟩ := foldExpr_const hreg cond hcond hcond'
    obtain ⟨choice, hchoice⟩ := Expr.exists_decided (hkind v hcond')
    rw [hchoice] at h
    cases choice with
    | true => exact foldExpr_const hreg yes hyes h
    | false => exact foldExpr_const hreg no hno h
  | .swizzle base indices t =>
    rw [Expr.nodes, List.forall_mem_cons] at he
    rw [foldExpr] at h
    obtain ⟨base', hbase', h⟩ := Outcome.bind_eq_ok.1 h
    obtain ⟨v, rfl⟩ := foldExpr_const hreg base he.2 hbase'
    exact const_of_settle rfl h
  | .construct t args =>
    rw [Expr.nodes, List.forall_mem_cons] at he
    rw [foldExpr] at h
    obtain ⟨args', hargs', h⟩ := Outcome.bind_eq_ok.1 h
    obtain ⟨vs, rfl, hlength⟩ := foldExprs_const hreg args he.2 hargs'
    refine const_of_settle ?_ h
    cases vs with
    | nil => exact absurd (List.eq_nil_of_length_eq_zero hlength.symm) he.1
    | cons v vs => simp [operandsConstant, Expr.isConst, Expr.value?]

theorem foldExprs_const (hreg : Builtin.standard = .ok registry) (es : List Expr)
    {es' : List Expr} (he : ∀ n ∈ Expr.nodesAll es, Evaluable registry n)
    (h : foldExprs registry es = .ok es') :
    ∃ vs : List Value, es' = vs.map .const ∧ vs.length = es.length := by
  match es with
  | [] =>
    rw [foldExprs] at h
    exact ⟨[], (Except.ok.inj h).symm, rfl⟩
  | e :: es =>
    rw [Expr.nodesAll, List.forall_mem_append] at he
    rw [foldExprs] at h
    obtain ⟨e', he', h⟩ := Outcome.bind_eq_ok.1 h
    obtain ⟨es'', hes'', h⟩ := Outcome.bind_eq_ok.1 h
    obtain ⟨v, rfl⟩ := foldExpr_const hreg e he.1 he'
    obtain ⟨vs, rfl, hlength⟩ := foldExprs_const hreg es he.2 hes''
    exact ⟨v :: vs, (Except.ok.inj h).symm, congrArg (· + 1) hlength⟩

end

/-! ## The normal form -/

/-- Folding reaches a normal form, whatever the registry is. In what it gives no operation has
constants for all its operands, no call on constants has a constant form, and neither a selection
nor a branch is decided; and folding that again changes nothing. With the standard registry an
expression that names no variable is folded to a constant, unless a texture is looked up in it, a
constructor has no arguments, or a condition is a constant but not a truth value. -/
theorem folded_normal_form (registry : Registry Implementation) :
    (∀ e e', foldExpr registry e = .ok e' →
      (∀ n ∈ e'.nodes, ¬Reducible registry n) ∧ foldExpr registry e' = .ok e') ∧
    (∀ body body', foldBlock registry body = .ok body' →
      (∀ st ∈ Stmt.nodesAll body', ¬ReducibleStmt registry st) ∧
        foldBlock registry body' = .ok body') ∧
    (Builtin.standard = .ok registry → ∀ e e', foldExpr registry e = .ok e' →
      (∀ n ∈ e.nodes, Evaluable registry n) → ∃ v, e' = .const v) := by
  refine ⟨fun e e' h => ?_, fun body body' h => ?_, fun hreg e e' h he =>
    foldExpr_const hreg e he h⟩
  · have hsettled := foldExpr_settled e h
    exact ⟨fun n hn => (hsettled n hn).not_reducible, foldExpr_of_settled e' hsettled⟩
  · have hsettled := foldBlock_settled body h
    exact ⟨fun st hst => (hsettled st hst).not_reducible, foldBlock_of_settled body' hsettled⟩

/-- `x * (2 + 2)` keeps its product, and `2 + 2` does not keep its sum. -/
theorem folded_normal_form_sum :
    let registry := Builtin.standardRegistry
    let two : Expr := .const ⟨.int, ⟨.int, [2]⟩, rfl, rfl⟩
    let sum : Expr := .binary .add two two .int
    let e : Expr := .binary .mul (.var "x" .int) sum .int
    let yes : Expr := .const ⟨.bool, ⟨.bool, [true]⟩, rfl, rfl⟩
    let body : List Stmt := [.branch (.unary .not yes .bool) [.discard] [.assign "y" none e]]
    (∃ e', foldExpr registry e = .ok e' ∧ (∀ n ∈ e'.nodes, ¬Reducible registry n) ∧
      foldExpr registry e' = .ok e') ∧
    (∃ body', foldBlock registry body = .ok body' ∧
      (∀ st ∈ Stmt.nodesAll body', ¬ReducibleStmt registry st) ∧
      foldBlock registry body' = .ok body') ∧
    ∃ v, foldExpr registry sum = .ok (.const v) := by
  intro registry two sum e yes body
  obtain ⟨hexpr, hblock, hconst⟩ := folded_normal_form registry
  refine ⟨?_, ?_, ?_⟩
  · obtain ⟨e', he'⟩ := Outcome.exists_eq_ok (x := foldExpr registry e) (by decide +kernel)
    exact ⟨e', he', hexpr e e' he'⟩
  · obtain ⟨body', hbody'⟩ :=
      Outcome.exists_eq_ok (x := foldBlock registry body) (by decide +kernel)
    exact ⟨body', hbody', hblock body body' hbody'⟩
  · obtain ⟨e', he'⟩ := Outcome.exists_eq_ok (x := foldExpr registry sum) (by decide +kernel)
    obtain ⟨v, rfl⟩ := hconst Builtin.standard_eq_ok sum e' he' fun n hn => by
      simp only [sum, two, Expr.nodes, List.cons_append, List.nil_append, List.mem_cons,
        List.not_mem_nil, or_false] at hn
      obtain rfl | rfl | rfl := hn <;> trivial
    exact ⟨v, he'⟩

end Folding

end BatchShader
