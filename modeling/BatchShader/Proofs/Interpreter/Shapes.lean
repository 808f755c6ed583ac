import BatchShader.Proofs.Interpreter.History

/-
  Types and shapes of registers.

  `Register.Shaped t n R`: the register has the type `t` and as many lanes as `t` has components, all
  of `t`'s kind and `n` long. An expression has a register of exactly the annotated type and of the
  batch's length, however wrong the annotations inside it are (`eval_shaped`); the variables of a
  batch stay shaped through whatever a host calls (`Hosted.sound`).
-/

namespace BatchShader

open Stateful (Ends)

namespace Register

/-! ## Constructors -/

/-- A register of a type, with lanes that fit the type and are all of one length. -/
structure Shaped (t : ShaderType) (n : Nat) (R : Register) : Prop where
  type_eq : R.type = t
  rows_eq : R.rows = n
  length_lanes : R.lanes.length = t.components
  kind_lane : ∀ l ∈ R.lanes, t.kind? = some l.kind
  rows_lane : ∀ l ∈ R.lanes, l.rows = n

theorem shaped_iff {t : ShaderType} {n : Nat} {R : Register} :
    R.Shaped t n ↔ R.type = t ∧ R.rows = n ∧ R.WellFormed := by
  constructor
  · rintro ⟨rfl, rfl, hlength, hkind, hrows⟩
    exact ⟨rfl, rfl, hlength, hkind, hrows⟩
  · rintro ⟨rfl, rfl, hlength, hkind, hrows⟩
    exact ⟨rfl, rfl, hlength, hkind, hrows⟩

theorem wellFormed_of_ofLanes {t : ShaderType} {lanes : List Lane} {R : Register}
    (h : ofLanes t lanes = .ok R) : R.WellFormed := by
  unfold ofLanes at h
  dsimp only at h
  split at h
  · next hlanes =>
    rw [← Except.ok.inj h]
    exact ⟨hlanes.1, fun l hl => (hlanes.2 l hl).1.symm, fun l hl => (hlanes.2 l hl).2⟩
  · cases h

theorem laneOfValues_eq_ok {k : Kind} {values : List Value} {i : Nat} {l : Lane}
    (h : laneOfValues k values i = .ok l) : l.kind = k ∧ l.rows = values.length := by
  obtain ⟨elems, helems, h⟩ := Outcome.bind_eq_ok.1 h
  have hlength := (Outcome.mapM_eq_ok helems).1
  rw [← Except.ok.inj h]
  exact ⟨rfl, hlength⟩

theorem wellFormed_of_ofValues {t : ShaderType} {values : List Value} {R : Register}
    (h : ofValues t values = .ok R) : R.WellFormed := by
  unfold ofValues at h
  split at h
  · cases h
  · split at h
    · rw [← Except.ok.inj h]
      exact zeroed_wellFormed t values.length
    · next k hk =>
      obtain ⟨lanes, hlanes, h⟩ := Outcome.bind_eq_ok.1 h
      obtain ⟨hlength, hmem⟩ := Outcome.mapM_eq_ok hlanes
      have hlane : ∀ l ∈ lanes, l.kind = k ∧ l.rows = values.length := fun l hl => by
        obtain ⟨i, -, hi⟩ := hmem l hl
        exact laneOfValues_eq_ok hi
      rw [← Except.ok.inj h]
      refine ⟨?_, fun l hl => ?_, fun l hl => (hlane l hl).2⟩
      · rw [hlength, List.length_range]
      · rw [hk, (hlane l hl).1]

/-- The registers that a host can make. -/
inductive Constructed : Register → Prop
  | zeroed (t : ShaderType) (rows : Nat) : Constructed (zeroed t rows)
  | splat (v : Value) (rows : Nat) : Constructed (splat v rows)
  | ofLanes {t : ShaderType} {lanes : List Lane} {R : Register} (h : ofLanes t lanes = .ok R) :
      Constructed R
  | ofFloats {t : ShaderType} {columns : List (Array Binary32)} {R : Register}
      (h : ofFloats t columns = .ok R) : Constructed R
  | ofValues {t : ShaderType} {values : List Value} {R : Register}
      (h : ofValues t values = .ok R) : Constructed R

theorem Constructed.wellFormed {R : Register} (h : Constructed R) : R.WellFormed := by
  cases h with
  | zeroed t rows => exact zeroed_wellFormed t rows
  | splat v rows => exact splat_wellFormed v rows
  | ofLanes h => exact wellFormed_of_ofLanes h
  | ofFloats h => exact wellFormed_of_ofLanes h
  | ofValues h => exact wellFormed_of_ofValues h

end Register

/-! ## Calls of a host -/

/-- What a host may call on a batch. -/
inductive HostCall
  | withTextures (textures : TextureUnits)
  | setInput (x : String) (R : Register)
  | setUniform (x : String) (v : Value)
  | run (it : Interpreter) (shader : Shader)

namespace HostCall

/-- A call as an action on the batch. -/
def act : HostCall → Interpreter.Action Unit
  | withTextures textures => modify (·.withTextures textures)
  | setInput x R => do set (← ofExcept ((← get).setInput x R))
  | setUniform x v => do set (← ofExcept ((← get).setUniform x v))
  | run it shader => it.run shader

/-- Only registers that were made by a constructor are handed over. -/
def Allowed : HostCall → Prop
  | setInput _ R => R.Constructed
  | _ => True

variable {b b' : Batch}

/-- A new input takes its place, or is refused and nothing changes. -/
theorem ends_set {x : Batch → Outcome Batch}
    (h : Ends (do set (← ofExcept (x (← get))) : Interpreter.Action Unit) b b') :
    (∃ f, x b = .error f ∧ b' = b) ∨ x b = .ok b' := by
  obtain ⟨f, hf, rfl⟩ | ⟨next, hnext, h⟩ := h.get_bind.ofExcept_bind
  · exact .inl ⟨f, hf, rfl⟩
  · rw [h.set]
    exact .inr hnext

/-- A call that is allowed takes a batch some steps further. A refused one takes none. -/
theorem evolves {call : HostCall} (hcall : call.Allowed) (h : Ends call.act b b') :
    Batch.Evolves b b' := by
  cases call with
  | withTextures textures =>
    refine .single (.withTextures textures ?_)
    cases h with
    | ok _ h =>
      cases h
      rfl
    | error _ h => cases h
  | setInput x R =>
    obtain ⟨_, -, rfl⟩ | h := ends_set h
    · exact .refl
    · exact .single (.setInput (Register.Constructed.wellFormed hcall) h)
  | setUniform x v =>
    obtain ⟨_, -, rfl⟩ | h := ends_set h
    · exact .refl
    · exact .single (.setUniform h)
  | run it shader => exact .single (.run h)

/-- An input is refused exactly if it has the wrong number of rows, and then nothing changes. -/
theorem run_setInput (hb : b.Sound) (x : String) (R : Register) :
    (R.rows = b.rows → ∃ b', (setInput x R).act.run b = .ok () b') ∧
      (R.rows ≠ b.rows → ∃ f, (setInput x R).act.run b = .error f b) := by
  have hact : (setInput x R).act.run b = (do set (← ofExcept (b.setInput x R)) :
      Interpreter.Action Unit).run b := rfl
  constructor
  · intro hrows
    have hset : b.setInput x R = .ok { b with store := b.store.put x R } :=
      Batch.setInput_eq_ok.2 ⟨hrows.trans hb.store_rows.symm, rfl⟩
    rw [hact, hset]
    exact ⟨_, rfl⟩
  · intro hrows
    cases hset : b.setInput x R with
    | ok b' =>
      have hstore := (Batch.setInput_eq_ok.1 hset).1
      exact absurd (hstore.trans hb.store_rows) hrows
    | error f =>
      rw [hact, hset]
      exact ⟨f, rfl⟩

end HostCall

/-- The batches that were made with the rows of a mask live and have since had calls of a host, each
of which may have failed. -/
inductive Hosted (mask : Array Bool) : Batch → Prop
  | created {b : Batch} (h : Batch.Created mask b) : Hosted mask b
  | call {b b' : Batch} (hb : Hosted mask b) (call : HostCall) (hcall : call.Allowed)
      (h : Ends call.act b b') : Hosted mask b'

theorem Batch.Created.rows_eq {mask : Array Bool} {b : Batch} (h : Created mask b) :
    b.rows = mask.size := by
  rw [Batch.rows, (LiveChain.ofMask_eq_ok h.rows.1).2, LiveChain.rows_build]

theorem Hosted.sound {mask : Array Bool} {b : Batch} (h : Hosted mask b) :
    b.Sound ∧ b.rows = mask.size := by
  have hevolves : ∃ b₀, Batch.Created mask b₀ ∧ Batch.Evolves b₀ b := by
    induction h with
    | created h => exact ⟨_, h, .refl⟩
    | call _ call hcall h ih =>
      obtain ⟨b₀, h₀, hbefore⟩ := ih
      exact ⟨b₀, h₀, hbefore.trans (HostCall.evolves hcall h)⟩
  obtain ⟨b₀, h₀, hevolves⟩ := hevolves
  have hstops := hevolves.stops h₀.reachable
  exact ⟨(h₀.reachable.evolves hevolves).sound, hstops.rows_eq.trans h₀.rows_eq⟩

/-! ## Expressions -/

namespace Interpreter

variable {it : Interpreter} {b : Batch} {c : LiveChain}

/-- The register of an expression has the annotated type. Only a variable is taken as it is, and
then its type is compared with the annotation; all others are made anew, by the annotation. -/
theorem type_of_eval (hit : it.Catalogued) (hb : b.Sound) (hc : b.Runs c) {e : Expr}
    {R : Register} (h : it.eval b c e = .ok R) : R.type = e.type := by
  have hclosed := hc.canonical.closed
  cases e with
  | const v =>
    rw [eval] at h
    rw [← Except.ok.inj h]
    rfl
  | var x t => exact (eval_var_eq_ok.1 h).2
  | call name args t =>
    rw [eval] at h
    obtain ⟨Rs, hRs, h⟩ := Outcome.bind_eq_ok.1 h
    have hargs := evalAll_wellFormed hit hb hc args hRs
    exact (kept_call hit hclosed (fun x hx => (hargs x hx).1) h).type_eq
  | unary op x t =>
    rw [eval] at h
    obtain ⟨_, -, h⟩ := Outcome.bind_eq_ok.1 h
    exact (Sweep.kept_unary (s := it.sweep c) hclosed h).type_eq
  | binary op l r t =>
    rw [eval] at h
    obtain ⟨_, -, h⟩ := Outcome.bind_eq_ok.1 h
    obtain ⟨_, -, h⟩ := Outcome.bind_eq_ok.1 h
    exact (Sweep.kept_binary (s := it.sweep c) hclosed h).type_eq
  | select cond yes no t =>
    obtain ⟨value, taken, notTaken, out, -, hsplit, hyes, hno⟩ := eval_select_eq_ok.1 h
    obtain ⟨-, _, -, -, rfl, rfl⟩ := splitOn_eq_ok hsplit
    have htaken := (kept_selectArm (hc.filter _).canonical.closed hyes).type_eq
    exact (kept_selectArm (hc.filter _).canonical.closed hno).type_eq.trans htaken
  | swizzle base indices t =>
    rw [eval] at h
    obtain ⟨_, -, h⟩ := Outcome.bind_eq_ok.1 h
    exact (Sweep.kept_swizzle (s := it.sweep c) hclosed h).type_eq
  | construct t args =>
    rw [eval] at h
    obtain ⟨_, -, h⟩ := Outcome.bind_eq_ok.1 h
    exact (Sweep.kept_construct (s := it.sweep c) hclosed h).type_eq

theorem eval_shaped (hit : it.Catalogued) (hb : b.Sound) (hc : b.Runs c) {e : Expr}
    {R : Register} (h : it.eval b c e = .ok R) : R.Shaped e.type b.rows := by
  obtain ⟨hwf, hrows⟩ := eval_wellFormed hit hb hc e h
  exact Register.shaped_iff.2 ⟨type_of_eval hit hb hc h, hrows, hwf⟩

end Interpreter

/-- A chain of live rows of the batch. -/
structure Batch.SubChain (b : Batch) (c : LiveChain) : Prop where
  canonical : c.Canonical
  rows_eq : c.rows = b.rows
  live : ∀ r ∈ c.visited, r ∈ b.chain.visited

theorem Batch.SubChain.runs {b : Batch} {c : LiveChain} (h : b.SubChain c) (hb : b.Sound) :
    b.Runs c :=
  ⟨h.canonical, h.rows_eq, fun r hr => hb.live r (h.live r hr)⟩

/-- In a batch that a host has worked on, each variable has lanes that fit its type and the rows of
the batch; an input of another length is refused and leaves the batch as it was. An expression that
is evaluated on such a batch, on all live rows or some, has lanes that fit the annotated type and
the rows of the batch. -/
theorem shaped_of_hosted {registry : Registry Implementation}
    (hregistry : Builtin.standard = .ok registry) {mask : Array Bool} {b : Batch}
    (h : Hosted mask b) :
    (∀ x R, b.store.get? x = some R → R.Shaped R.type mask.size) ∧
      (∀ x R, (R.rows = mask.size → ∃ b', (HostCall.setInput x R).act.run b = .ok () b') ∧
        (R.rows ≠ mask.size → ∃ f, (HostCall.setInput x R).act.run b = .error f b)) ∧
      ∀ config c e R, b.SubChain c →
        (Interpreter.mk registry config).eval b c e = .ok R → R.Shaped e.type mask.size := by
  obtain ⟨hb, hrows⟩ := h.sound
  rw [← hrows]
  refine ⟨fun x R hR => ?_, HostCall.run_setInput hb, fun config c e R hc hR => ?_⟩
  · obtain ⟨hwf, hRrows⟩ := hb.wellFormed x R hR
    exact Register.shaped_iff.2 ⟨rfl, hRrows, hwf⟩
  · exact Interpreter.eval_shaped (Interpreter.catalogued_of_standard hregistry config) hb
      (hc.runs hb) hR

theorem shaped_of_hosted_refusing :
    let it : Interpreter := ⟨Builtin.standardRegistry, .standard⟩
    let lit : Expr := .var "lit" .bool
    let short : Register := .zeroed .float 2
    ∃ b, Hosted #[true, false, true] b ∧ b.store.contains "dark" = true ∧
      (∃ f, (HostCall.setInput "shade" short).act.run b = .error f b) ∧
      ∃ R, it.eval b (.build 3 [2]) (.select lit (.var "dark" .bool) lit .bool) = .ok R ∧
        R.Shaped .bool 3 := by
  intro it lit short
  let shader : Shader := ⟨.fragment, [.assign "dark" none (.unary .not lit .bool),
    .assign "dark" (some [9]) lit]⟩
  let input : Register := ⟨.bool, 3, [⟨.bool, #[true, true, false]⟩]⟩
  let b₁ : Batch := { Batch.ofChain (.build 3 [0, 2]) with store := (Store.new 3).put "lit" input }
  have h₀ : Batch.Created #[true, false, true] (.ofChain (.build 3 [0, 2])) :=
    .ofMask (by exact rfl)
  have hinput : input.Constructed := by
    have hlanes : Register.ofLanes .bool [⟨.bool, #[true, true, false]⟩] = .ok input := by
      decide +kernel
    exact .ofLanes hlanes
  have h₁ : Hosted #[true, false, true] b₁ := by
    have hends : Ends (HostCall.setInput "lit" input).act (.ofChain (.build 3 [0, 2])) b₁ :=
      .ok () rfl
    exact .call (.created h₀) (.setInput "lit" input) hinput hends
  -- the run fails at its second statement, when the first one has declared a variable
  obtain ⟨f, b, hrun, hb⟩ := Stateful.exists_run_eq_error (x := it.run shader) (s := b₁)
    (P := fun _ b => b.store.contains "dark" && (b.chain == .build 3 [0, 2]) &&
      (it.eval b (.build 3 [2]) (.select lit (.var "dark" .bool) lit .bool)).isOk)
    (by decide +kernel)
  rw [Bool.and_eq_true, Bool.and_eq_true, beq_iff_eq] at hb
  obtain ⟨⟨hdark, hchain⟩, hok⟩ := hb
  have h : Hosted #[true, false, true] b := by
    have hends : Ends (HostCall.run it shader).act b₁ b := .error f hrun
    exact .call h₁ (.run it shader) trivial hends
  have hsub : b.SubChain (.build 3 [2]) := by
    refine ⟨LiveChain.canonical_build ⟨by decide, by simp, by simp⟩, ?_, ?_⟩
    · rw [Batch.rows, hchain]
      rfl
    · rw [hchain]
      decide +kernel
  obtain ⟨-, hinputs, heval⟩ := shaped_of_hosted Builtin.standard_eq_ok h
  obtain ⟨R, hR⟩ := Outcome.exists_eq_ok hok
  exact ⟨b, h, hdark, (hinputs "shade" short).2 (by decide), R, hR, heval _ _ _ R hsub hR⟩

end BatchShader
