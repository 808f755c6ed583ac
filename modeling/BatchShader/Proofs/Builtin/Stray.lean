import BatchShader.Proofs.Builtin.Directions

/-
  Calls over chains that lead out of the batch.

  Chains can be adopted from foreign bytes, and then a link may point past the end. A sweep over
  such a chain goes out of range (`apply_stray`), so a call of an overload with two slots does so
  too, at its first sweep (`Strays`). What matters is that no call ends with an error of the engine
  there: such errors are for calls that do not fit.
-/

namespace BatchShader

theorem Sweep.apply_stray {β : Type} {s : Sweep} (hc : ¬s.chain.Closed) (step : RowStep β)
    (out : Array β) : s.apply step out = .error .outOfRange := by
  rw [apply, LiveChain.runs_eq_error hc]
  rfl

/-- So a sweep succeeds over closed chains only. -/
theorem Sweep.closed_of_apply {β : Type} {s : Sweep} {step : RowStep β} {old new : Array β}
    (h : s.apply step old = .ok new) : s.chain.Closed := by
  by_contra hc
  cases (apply_stray hc step old).symm.trans h

namespace Register

variable {x : Register} {k : Kind} {e : Failure}

theorem run_modify_error {i : Nat} {f : Array k.Elem → Outcome (Array k.Elem)}
    {old : Array k.Elem} (hx : x.lane k i = .ok old) (hf : f old = .error e) :
    (modify k i f).run x = .error e x := by
  refine Stateful.run_bind_eq_error.2 (.inr ⟨x, x, rfl, ?_⟩)
  refine Stateful.run_bind_eq_error.2 (.inl (Stateful.run_ofExcept_eq_error.2 ⟨?_, rfl⟩))
  rw [modifyLane, hx, Outcome.ok_bind, hf]
  rfl

/-- A loop over the lanes fails as its first step does. -/
theorem run_forM_error {n : Nat} {action : Nat → Writer Unit} (hn : 0 < n)
    (h : (action 0).run x = .error e x) : ((List.range n).forM action).run x = .error e x := by
  obtain ⟨m, rfl⟩ := Nat.exists_eq_succ_of_ne_zero (Nat.ne_of_gt hn)
  rw [List.range_succ_eq_map]
  exact Stateful.run_bind_eq_error.2 (.inl h)

end Register

namespace Builtin

/-- A call that fits goes out of range if its chain does, before anything is written. -/
def Strays (b : Builtin) : Prop :=
  ∀ (inv : Invocation) (args : List Register) (out : Register), ¬inv.chain.Closed →
    Fits b.signature inv.chain.rows args out →
    (b.execute inv args).run out = .error .outOfRange out

theorem strays_both {s : Signature} {run : RuntimeBody} {const : ConstantBody}
    (h : ∀ (inv : Invocation) (args : List Register) (out : Register), ¬inv.chain.Closed →
      Fits s inv.chain.rows args out → (run inv args).run out = .error .outOfRange out) :
    Strays ⟨s, .both run const⟩ := fun inv args out hc hfits =>
  (execute_of_check_ok rfl hfits.checkCall).trans (h inv args out hc hfits)

/-- What is computed first, without effects, comes before the failure. -/
theorem run_ofExcept_bind_error {α : Type} {x : Outcome α} {a : α} {f : α → Register.Writer Unit}
    {out : Register} {e : Failure} (hx : x = .ok a) (hf : (f a).run out = .error e out) :
    (ofExcept x >>= f : Register.Writer Unit).run out = .error e out :=
  Stateful.run_bind_eq_error.2 (.inr ⟨a, out, Stateful.run_ofExcept_eq_ok.2 ⟨hx, rfl⟩, hf⟩)

section

variable {s : Signature} {k : Kind}

theorem strays_componentwise {ks : List Kind} (f : ElemFun k ks) (hs : ComponentwiseFits ks k s) :
    Strays ⟨s, componentwise ks f s⟩ := by
  refine strays_both fun inv args out hc hfits => ?_
  have hpos := components_pos hs.2.1
  obtain ⟨columns, hcolumns, -⟩ := hs.exists_columnsOf hfits hpos
  obtain ⟨old, hold, -⟩ := hfits.out_wellFormed.exists_lane (k := k) (i := 0)
    (by rw [hfits.result, hs.2.1]) (by rw [hfits.result]; exact hpos)
  have hlen : args.length = s.params.length := by rw [← hfits.params, List.length_map]
  refine run_ofExcept_bind_error (hs.checkArity hlen) (Register.run_forM_error hpos ?_)
  refine run_ofExcept_bind_error hcolumns (Register.run_modify_error hold ?_)
  exact Sweep.apply_stray (s := inv.toSweep) hc _ _

theorem strays_reduce (op : k.Elem → k.Elem → k.Elem) (hs : ReduceFits k s) :
    Strays ⟨s, reduce op s⟩ := by
  obtain ⟨hparams, hresult, hone⟩ := hs
  refine strays_both fun inv args out hc hfits => ?_
  rw [← hfits.params, List.map_map] at hparams
  obtain ⟨x, rfl⟩ : ∃ x, args = [x] := List.length_eq_one_iff.1 (by
    simpa using congrArg List.length hparams)
  have hk : x.type.kind? = some k := by simpa using hparams
  obtain ⟨column, hcolumn, -⟩ :=
    (hfits.args_wellFormed x List.mem_cons_self).exists_lane hk (components_pos hk)
  obtain ⟨old, hold, -⟩ := hfits.out_wellFormed.exists_lane (k := k) (i := 0)
    (by rw [hfits.result, hresult]) (by rw [hfits.result, hone]; exact Nat.one_pos)
  refine Stateful.run_bind_eq_error.2 (.inl (Register.run_modify_error hold ?_))
  rw [hcolumn, Outcome.ok_bind]
  exact Sweep.apply_stray (s := inv.toSweep) hc _ _

/-- The sweep that sets a sum to zero goes out of range already. -/
theorem sumLanes_stray {sweep : Sweep} (hc : ¬sweep.chain.Closed) {x y : Register}
    (hx : x.WellFormed) (hk : x.type.kind? = some .float) (step : SumStep)
    (finish : Binary32 → Binary32) (acc : Array Binary32) :
    sumLanes sweep x y step finish acc = .error .outOfRange := by
  obtain ⟨column, hcolumn, -⟩ := hx.exists_lane hk (components_pos hk)
  rw [sumLanes, hcolumn, Outcome.ok_bind, Sweep.map1, Sweep.map, Sweep.apply_stray hc]
  rfl

theorem strays_pairSum (step : SumStep) (finish : Binary32 → Binary32) (hs : PairSumFits s) :
    Strays ⟨s, pairSum step finish s⟩ := by
  refine strays_both fun inv args out hc hfits => ?_
  obtain ⟨x, y, hpair, hx, -, -, hk, -⟩ := hs.exists_operands hfits
  obtain ⟨-, -, hresult, hone⟩ := hs
  obtain ⟨old, hold, -⟩ := hfits.out_wellFormed.exists_lane (k := .float) (i := 0)
    (by rw [hfits.result, hresult]) (by rw [hfits.result, hone]; exact Nat.one_pos)
  refine run_ofExcept_bind_error hpair (Register.run_modify_error hold ?_)
  exact sumLanes_stray hc (hfits.args_wellFormed x hx) hk _ _ _

theorem strays_normalize (hs : DirectionFits 1 s) : Strays ⟨s, normalize s⟩ := by
  refine strays_both fun inv args out hc hfits => ?_
  obtain ⟨x, rfl⟩ := List.length_eq_one_iff.1 (hs.length_args hfits)
  have hx : x ∈ [x] := List.mem_cons_self
  refine Stateful.run_bind_eq_error.2 (.inl (Stateful.run_ofExcept_eq_error.2 ⟨?_, rfl⟩))
  exact sumLanes_stray hc (hfits.args_wellFormed x hx) (by rw [hs.type_eq hfits hx, hs.2]) _ _ _

theorem strays_faceforward (hs : DirectionFits 3 s) : Strays ⟨s, faceforward s⟩ := by
  refine strays_both fun inv args out hc hfits => ?_
  obtain ⟨n, i, p, rfl⟩ := List.length_eq_three.1 (hs.length_args hfits)
  have hp : p ∈ [n, i, p] := by simp
  refine Stateful.run_bind_eq_error.2 (.inl (Stateful.run_ofExcept_eq_error.2 ⟨?_, rfl⟩))
  exact sumLanes_stray hc (hfits.args_wellFormed p hp) (by rw [hs.type_eq hfits hp, hs.2]) _ _ _

theorem strays_cross (hs : CrossFits s) : Strays ⟨s, cross s⟩ := by
  obtain ⟨hparams, hresult⟩ := hs
  refine strays_both fun inv args out hc hfits => ?_
  have hargs := hfits.params.trans hparams
  obtain ⟨x, y, rfl⟩ : ∃ x y, args = [x, y] := List.length_eq_two.1 (by
    simpa using congrArg List.length hargs)
  obtain ⟨htx, hty⟩ : x.type = .vec3 ∧ y.type = .vec3 := by simpa using hargs
  have hlane : ∀ {z : Register}, z.WellFormed → z.type = .vec3 → ∀ j < 3,
      ∃ column, z.lane .float j = .ok column := fun {z} hz ht j hj => by
    obtain ⟨column, hcolumn, -⟩ := hz.exists_lane (k := .float) (i := j)
      (by rw [ht]; rfl) (by rw [ht]; exact hj)
    exact ⟨column, hcolumn⟩
  have hx := hlane (hfits.args_wellFormed x (by simp)) htx
  have hy := hlane (hfits.args_wellFormed y (by simp)) hty
  obtain ⟨xj, hxj⟩ := hx 1 (by decide)
  obtain ⟨yk, hyk⟩ := hy 2 (by decide)
  obtain ⟨yj, hyj⟩ := hy 1 (by decide)
  obtain ⟨xk, hxk⟩ := hx 2 (by decide)
  obtain ⟨old, hold⟩ := hlane hfits.out_wellFormed (hfits.result.trans hresult) 0 (by decide)
  refine Stateful.run_bind_eq_error.2 (.inl ?_)
  refine run_ofExcept_bind_error hxj (run_ofExcept_bind_error hyk ?_)
  refine run_ofExcept_bind_error hyj (run_ofExcept_bind_error hxk ?_)
  exact Register.run_modify_error hold (Sweep.apply_stray (s := inv.toSweep) hc _ _)

end

end Builtin

end BatchShader
