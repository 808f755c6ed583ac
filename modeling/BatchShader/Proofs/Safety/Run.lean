import BatchShader.Proofs.Builtin.RowTexture
import BatchShader.Proofs.Folding
import BatchShader.Proofs.LiveSet
import BatchShader.Proofs.Safety.Execution
import BatchShader.Proofs.Texture.Reads

/-
  Runs stay in range.

  Folding evaluates overloads on constants, which their runtime forms show to be in range, and
  operations on a batch of one row, where evaluation is (`inRange_foldBlock`). With the execution of
  statements this covers a run (`inRange_run`). `run_safe` puts beside it what a run does on the
  way: its chains lead from row to row of the batch, and the numbers of texels are worked out in
  words that hold them. Runs that look up textures need the sides of these to fit, since an accepted
  texture with longer ones has no texel for some place (`run_leaves_tooWide`).
-/

namespace BatchShader

open Outcome (inRange_ok inRange_fail inRange_mismatch)

/-! ## Folding -/

namespace Folding

open Interpreter

variable {registry : Registry Implementation}

/-- Constants of the parameter types make up the arguments of a call on one row. -/
theorem fits_splat {s : Signature} {values : List Value}
    (htypes : values.map Value.type = s.params) :
    Builtin.Fits s 1 (values.map (Register.splat · 1)) (.zeroed s.result 1) where
  params := by
    rw [← htypes, List.map_map]
    rfl
  result := rfl
  args_wellFormed := by
    intro x hx
    obtain ⟨v, -, rfl⟩ := List.mem_map.1 hx
    exact Register.splat_wellFormed v 1
  args_rows := by
    intro x hx
    obtain ⟨v, -, rfl⟩ := List.mem_map.1 hx
    rfl
  out_wellFormed := Register.zeroed_wellFormed _ 1
  out_rows := rfl

/-- The constant form of an overload gives a value wherever its runtime form does. -/
theorem inRange_evaluate {o : Builtin} (ho : Builtin.Catalogued o) (values : List Value) :
    (o.evaluate values).InRange := by
  cases ho with
  | agree _ hagree _ =>
    by_cases htypes : values.map Value.type = o.signature.params
    · obtain ⟨_, -, -, hrows⟩ :=
        hagree ⟨.one .scalar, none⟩ _ _ (Sweep.closed_one .scalar) (fits_splat htypes)
      have hlive : 0 ∈ LiveChain.single.visited := by
        rw [LiveChain.visited_single]
        exact List.mem_cons_self
      obtain ⟨vs, v, hvs, hv, -⟩ := hrows 0 hlive
      rw [Register.mapM_rowValue?_splat values Nat.one_pos] at hvs
      cases hvs
      rw [hv]
      exact inRange_ok _
    · unfold Builtin.evaluate
      split
      · refine (Builtin.inRange_checkTypes _ _).bind fun _ h => ?_
        exact absurd (Builtin.checkTypes_eq_ok.1 h) htypes
      · exact inRange_ok none
      · exact inRange_fail _
  | texture _ => exact inRange_ok none
  | missing s => exact inRange_fail _

theorem inRange_foldCall (hit : (forConstants registry).Catalogued) (name : String)
    (args : List Expr) (t : ShaderType) : (foldCall registry name args t).InRange := by
  unfold foldCall
  split
  · exact inRange_ok _
  · next values _ =>
    refine (Registry.inRange_lookup _ _ _).bind fun o ho => ?_
    have hcat := hit o (Registry.mem_of_lookup ho)
    refine (inRange_evaluate hcat values).bind fun result _ => ?_
    split
    · exact inRange_ok _
    · exact inRange_ok _

/-- An operation is reduced on a sound batch of one row, with no textures. -/
theorem inRange_reduce (hit : (forConstants registry).Catalogued) (e : Expr) :
    (reduce registry e).InRange := by
  have hsound := Batch.sound_ofChain LiveChain.canonical_single
  have hfull : (Batch.ofChain .single).textures.Full := by
    intro unit t h
    cases h
  rw [reduce, Batch.new_one, Outcome.ok_bind]
  refine (inRange_eval hit hsound hfull hsound.runs e).bind fun R _ => ?_
  split
  · exact inRange_ok _
  · exact inRange_mismatch _

theorem inRange_settle (hit : (forConstants registry).Catalogued) (e : Expr) :
    (settle registry e).InRange := by
  unfold settle
  split
  · exact inRange_reduce hit e
  · exact inRange_ok e

mutual

theorem inRange_foldExpr (hit : (forConstants registry).Catalogued) (e : Expr) :
    (foldExpr registry e).InRange := by
  match e with
  | .const v =>
    rw [foldExpr]
    exact inRange_ok _
  | .var x t =>
    rw [foldExpr]
    exact inRange_ok _
  | .call name args t =>
    rw [foldExpr]
    exact (inRange_foldExprs hit args).bind fun args' _ => inRange_foldCall hit name args' t
  | .unary op x t =>
    rw [foldExpr]
    exact (inRange_foldExpr hit x).bind fun _ _ => inRange_settle hit _
  | .binary op l r t =>
    rw [foldExpr]
    refine (inRange_foldExpr hit l).bind fun _ _ => ?_
    exact (inRange_foldExpr hit r).bind fun _ _ => inRange_settle hit _
  | .select cond yes no t =>
    rw [foldExpr]
    refine (inRange_foldExpr hit cond).bind fun cond' _ => ?_
    split
    · exact inRange_foldExpr hit yes
    · exact inRange_foldExpr hit no
    · refine (inRange_foldExpr hit yes).bind fun _ _ => ?_
      exact (inRange_foldExpr hit no).bind fun _ _ => inRange_ok _
  | .swizzle base indices t =>
    rw [foldExpr]
    exact (inRange_foldExpr hit base).bind fun _ _ => inRange_settle hit _
  | .construct t args =>
    rw [foldExpr]
    exact (inRange_foldExprs hit args).bind fun _ _ => inRange_settle hit _

theorem inRange_foldExprs (hit : (forConstants registry).Catalogued) (es : List Expr) :
    (foldExprs registry es).InRange := by
  match es with
  | [] =>
    rw [foldExprs]
    exact inRange_ok []
  | e :: es =>
    rw [foldExprs]
    refine (inRange_foldExpr hit e).bind fun _ _ => ?_
    exact (inRange_foldExprs hit es).bind fun _ _ => inRange_ok _

end

/-- Folding statements stays in range. -/
theorem inRange_foldBlock (hit : (forConstants registry).Catalogued) (body : List Stmt) :
    (foldBlock registry body).InRange := by
  match body with
  | [] =>
    rw [foldBlock]
    exact inRange_ok []
  | .assign target mask e :: rest =>
    rw [foldBlock, foldStmt]
    · refine ((inRange_foldExpr hit e).bind fun _ _ => inRange_ok _).bind fun _ _ => ?_
      exact (inRange_foldBlock hit rest).bind fun _ _ => inRange_ok _
    · intro _ _ _ h
      cases h
  | .discard :: rest =>
    rw [foldBlock, foldStmt]
    · exact (inRange_foldBlock hit rest).bind fun _ _ => inRange_ok _
    · intro _ _ _ h
      cases h
  | .branch cond yes no :: rest =>
    have hyes := inRange_foldBlock hit yes
    have hno := inRange_foldBlock hit no
    have hrest := inRange_foldBlock hit rest
    rw [foldBlock]
    refine (inRange_foldExpr hit cond).bind fun _ _ => ?_
    split
    · exact hyes.bind fun _ _ => hrest.bind fun _ _ => inRange_ok _
    · exact hno.bind fun _ _ => hrest.bind fun _ _ => inRange_ok _
    · exact hyes.bind fun _ _ => hno.bind fun _ _ => hrest.bind fun _ _ => inRange_ok _

end Folding

/-! ## Runs -/

namespace Interpreter

variable {it : Interpreter} {b : Batch}

theorem inRange_run (hit : it.Catalogued) (hb : b.Sound) (hfull : b.textures.Full)
    (shader : Shader) : Stateful.InRange (it.run shader) b := by
  have hbody : (it.bodyOf shader).InRange := by
    unfold bodyOf
    split
    · exact Folding.inRange_foldBlock hit shader.body
    · exact inRange_ok _
  intro b' h
  rw [run_eq] at h
  split at h
  · cases h
  · split at h
    · next body _ => exact inRange_execBlock hit hb hfull hb.runs body b' h
    · next e he =>
      cases h
      exact hbody he

/-- A call fails as its overload does. -/
theorem eval_call_eq_error {c : LiveChain} {name : String} {args : List Expr} {t : ShaderType}
    {f : Failure} {Rs : List Register} (hargs : it.evalAll b c args = .ok Rs) {o : Builtin}
    (ho : it.registry.lookup name (Rs.map Register.type) = .ok o) {out : Register}
    (h : (o.execute ⟨it.sweep c, some b.textures⟩ Rs).run (.zeroed t b.rows) = .error f out) :
    it.eval b c (.call name args t) = .error f := by
  rw [eval, hargs, Outcome.ok_bind, call, ho, Outcome.ok_bind]
  dsimp only
  rw [h]

/-- An assignment fails as its expression does, before anything is written. -/
theorem execBlock_assign_eq_error {c : LiveChain} (hlive : c.isEmpty = false) {e : Expr}
    {f : Failure} (h : it.eval b c e = .error f) (target : String) (mask : Option (List UInt8))
    (rest : List Stmt) :
    (it.execBlock c (.assign target mask e :: rest)).run b = .error f b := by
  rw [execBlock, if_neg (by simp [hlive]), execStmt]
  refine Stateful.run_bind_eq_error.2 (.inl (Stateful.run_bind_eq_error.2 (.inr ⟨b, b, rfl, ?_⟩)))
  exact Stateful.run_bind_eq_error.2 (.inl (Stateful.run_ofExcept_eq_error.2 ⟨h, rfl⟩))

end Interpreter

/-! ## Traversals -/

open LiveChain (Consecutive)

/-- Traversals stay on the first `rows` rows, in steps that a link byte holds. -/
structure LiveChain.StaysInside (c : LiveChain) (rows : Nat) : Prop where
  runs : ∀ paths, ∃ runs, c.runs paths = .ok runs ∧
    ∀ run ∈ runs, ∀ r ∈ run.toList, r < rows
  distance : ∀ r r', Consecutive c.visited.toFinset r r' →
    ∃ byte : UInt8, c.links[r]? = some byte ∧ byte.toNat = r' - r

theorem LiveChain.Canonical.staysInside {c : LiveChain} (hc : c.Canonical) :
    c.StaysInside c.rows where
  runs paths := by
    obtain ⟨runs, hruns, hcover, -⟩ := hc.closed.runs_eq_ok paths
    refine ⟨runs, hruns, fun run hrun r hr => lt_rows_of_mem_visited ?_⟩
    rw [← hcover]
    exact List.mem_flatMap.2 ⟨run, hrun, hr⟩
  distance _ _ hnext := hc.distance (fun _ => List.mem_toFinset.symm) hnext

/-- What a host can do on a batch without going out of range. -/
structure RunsSafely (registry : Registry Implementation) (b : Batch) : Prop where
  /-- Whatever the shader is, well typed or not, a run ends well or with an error of the engine,
  unless the sides of a bound texture are too long. -/
  run : b.textures.SidesFit → ∀ config shader,
    (∃ b', ((Interpreter.mk registry config).run shader).run b = .ok () b') ∨
      ∃ e b', ((Interpreter.mk registry config).run shader).run b = .error (.error e) b'
  /-- So does the evaluation of an expression on some of the live rows. -/
  eval : b.textures.SidesFit → ∀ config c x, b.SubChain c →
    (∃ R, (Interpreter.mk registry config).eval b c x = .ok R) ∨
      ∃ e, (Interpreter.mk registry config).eval b c x = .error (.error e)
  /-- Folding does so, whatever the textures are. -/
  fold : ∀ body, (∃ body', Folding.foldBlock registry body = .ok body') ∨
    ∃ e, Folding.foldBlock registry body = .error (.error e)
  /-- A chain of live rows is traversed inside the batch. -/
  chains : ∀ c, b.SubChain c → c.StaysInside b.rows
  /-- A bound texture is read at its texels, exactly if its sides are not too long. -/
  textures : ∀ unit t, b.textures.get? unit = some t → (t.ReadsInside ↔ t.SidesFit)
  /-- Integers of a shader wrap, and are not divided by zero. -/
  add : Sweep.Wraps .add fun m n => m + n
  sub : Sweep.Wraps .sub fun m n => m - n
  mul : Sweep.Wraps .mul fun m n => m * n
  div : Sweep.Wraps .div fun m n => if n = 0 then 0 else m.tdiv n

/-- A batch that a host has worked on, with textures from the constructors, is used safely. -/
theorem run_safe {registry : Registry Implementation}
    (hregistry : Builtin.standard = .ok registry) {mask : Array Bool} {b : Batch}
    (h : Hosted mask b) (haccepted : b.textures.Accepted) : RunsSafely registry b := by
  obtain ⟨hb, -⟩ := h.sound
  have hcat := fun config => Interpreter.catalogued_of_standard hregistry config
  constructor
  case run =>
    intro hfit config shader
    have hrange := Interpreter.inRange_run (hcat config) hb (haccepted.full hfit) shader
    obtain ⟨_, b', hrun⟩ | hfails := hrange.ok_or_error
    · exact .inl ⟨b', hrun⟩
    · exact .inr hfails
  case eval =>
    intro hfit config c x hc
    have hfull := haccepted.full hfit
    exact (Interpreter.inRange_eval (hcat config) hb hfull (hc.runs hb) x).ok_or_error
  case fold => exact fun body => (Folding.inRange_foldBlock (hcat .standard) body).ok_or_error
  case chains =>
    intro c hc
    rw [← hc.rows_eq]
    exact hc.canonical.staysInside
  case textures =>
    exact fun unit t ht => Texture.Accepted.readsInside_iff (haccepted unit t ht)
  case add => exact Sweep.wraps_add
  case sub => exact Sweep.wraps_sub
  case mul => exact Sweep.wraps_mul
  case div => exact Sweep.wraps_div

theorem run_safe_illTyped :
    let registry := Builtin.standardRegistry
    let one : Expr := .const ⟨.int, ⟨.int, [1]⟩, rfl, rfl⟩
    let body : List Stmt := [.assign "n" none one,
      .assign "n" (some [255]) (.swizzle one [200] .int)]
    let image : Image := ⟨1, 1, #[default], default⟩
    ∃ b, Hosted #[true, false, true] b ∧ b.textures.get? 0 = some (.flat image) ∧
      (∃ e b', ((Interpreter.mk registry ⟨256, .wide8, false⟩).run ⟨.fragment, body⟩).run b =
        .error (.error e) b') ∧
      (∃ e, Folding.foldBlock registry body = .error (.error e)) ∧
      b.chain.StaysInside 3 ∧ (Texture.flat image).ReadsInside := by
  intro registry one body image
  let units : TextureUnits := .bind .empty 0 (.flat image)
  let b : Batch := (Batch.ofChain (.build 3 [0, 2])).withTextures units
  have hcreated : Batch.Created #[true, false, true] (.ofChain (.build 3 [0, 2])) :=
    .ofMask (by exact rfl)
  have h : Hosted #[true, false, true] b := by
    have hends : Stateful.Ends (HostCall.withTextures units).act
        (.ofChain (.build 3 [0, 2])) b := .ok () rfl
    exact .call (.created hcreated) (.withTextures units) trivial hends
  have himage : image.Accepted := ⟨⟨1, 1, #[default], default, rfl⟩, by decide⟩
  have hsides : (Texture.flat image).SidesFit := fun i hi => by
    rw [List.mem_singleton.1 hi]
    exact (by decide : 1 * 1 < 2 ^ 64)
  have hsafe := run_safe Builtin.standard_eq_ok h
    (TextureUnits.forall_bind TextureUnits.forall_empty himage)
  have hfit : b.textures.SidesFit := TextureUnits.forall_bind TextureUnits.forall_empty hsides
  refine ⟨b, h, rfl, ?_, ?_, ?_, (hsafe.textures 0 _ rfl).2 hsides⟩
  · obtain ⟨e, b', hfails, -⟩ := Stateful.exists_run_eq_error
      (x := (Interpreter.mk registry ⟨256, .wide8, false⟩).run ⟨.fragment, body⟩) (s := b)
      (P := fun _ _ => true) (by decide +kernel)
    obtain ⟨_, hok⟩ | herror := hsafe.run hfit ⟨256, .wide8, false⟩ ⟨.fragment, body⟩
    · rw [hok] at hfails
      cases hfails
    · exact herror
  · have hfails : (Folding.foldBlock registry body).isOk = false := by decide +kernel
    obtain ⟨_, hok⟩ | herror := hsafe.fold body
    · rw [hok] at hfails
      cases hfails
    · exact herror
  · have hsub : b.SubChain b.chain := ⟨h.sound.1.chain, rfl, fun _ hr => hr⟩
    exact hsafe.chains b.chain hsub

/-- A run that looks up an accepted texture whose sides are too long, at three quarters of both,
goes out of range. -/
theorem run_leaves_tooWide :
    let coords : Value := ⟨.vec2, ⟨.float, [⟨0x3f400000⟩, ⟨0x3f400000⟩]⟩, rfl, rfl⟩
    let sample : Expr := .call "texture2D" [.var "s" .sampler2D, .const coords] .vec4
    ∃ registry b, Builtin.standard = .ok registry ∧ Hosted #[true] b ∧ b.textures.Accepted ∧
      b.textures.get? 0 = some (.flat .tooWide) ∧
      ((Interpreter.mk registry ⟨256, .wide8, false⟩).run
        ⟨.fragment, [.assign "c" none sample]⟩).run b = .error .outOfRange b := by
  intro coords sample
  obtain ⟨registry, hregistry, -⟩ := Builtin.exists_standard
  let units : TextureUnits := .bind .empty 0 (.flat .tooWide)
  let unit : Value := ⟨.sampler2D, ⟨.int, [0]⟩, rfl, rfl⟩
  let bound : Batch := (Batch.ofChain (.build 1 [0])).withTextures units
  let b : Batch := { bound with store := bound.store.put "s" (.splat unit 1) }
  have hbound : Hosted #[true] bound := by
    have hends : Stateful.Ends (HostCall.withTextures units).act (.ofChain (.build 1 [0])) bound :=
      .ok () rfl
    exact .call (.created (.ofMask (by exact rfl))) (.withTextures units) trivial hends
  have hb : Hosted #[true] b := by
    have hends : Stateful.Ends (HostCall.setUniform "s" unit).act bound b := .ok () rfl
    exact .call hbound (.setUniform "s" unit) trivial hends
  let it : Interpreter := ⟨registry, ⟨256, .wide8, false⟩⟩
  have hsample : it.eval b b.chain sample = .error .outOfRange := by
    let s : Signature := ⟨.vec4, "texture2D", [.sampler2D, .vec2]⟩
    obtain ⟨f, out, hfails, hwhy⟩ := Stateful.exists_run_eq_error
      (x := Builtin.execute ⟨s, Builtin.textureLookup .flat s⟩ ⟨⟨b.chain, .wide8⟩, some units⟩
        [.splat unit 1, .splat coords 1])
      (s := .zeroed .vec4 1) (P := fun f _ => decide (f = .outOfRange)) (by decide +kernel)
    rw [of_decide_eq_true hwhy] at hfails
    have hargs : it.evalAll b b.chain [.var "s" .sampler2D, .const coords] =
        .ok [.splat unit 1, .splat coords 1] := rfl
    exact Interpreter.eval_call_eq_error hargs (Builtin.lookup_texture2D hregistry) hfails
  have haccepted : b.textures.Accepted :=
    TextureUnits.forall_bind TextureUnits.forall_empty Image.accepted_tooWide
  refine ⟨registry, b, hregistry, hb, haccepted, rfl, ?_⟩
  rw [Interpreter.run_eq]
  exact Interpreter.execBlock_assign_eq_error rfl hsample ..

end BatchShader
