import BatchShader.Proofs.Builtin.Resolution
import BatchShader.Proofs.InRange

/-
  Calls that fail.

  `Refused b inv args out` lists the reasons for which a call may fail: no body, arguments or a
  result that do not fit, and, for a texture lookup, a live row whose unit has no texture of the
  right kind. All of them are found before anything is written (`execute_refused`), and without
  them a call has nothing to report (`execute_of_not_refused`). It succeeds then (`exists_execute`),
  if its chain stays inside the batch and its textures have a texel for each place.
-/

namespace BatchShader.Builtin

variable {b : Builtin} {inv : Invocation} {args : List Register} {out : Register}

theorem inRange_checkTypes (s : Signature) (found : List ShaderType) :
    (checkTypes s found).InRange := by
  refine Outcome.inRange_check fun _ => ?_
  split
  · exact Outcome.inRange_mismatch _
  · exact Outcome.inRange_ok _

/-- What is found wrong with a call is an error of the engine. -/
theorem inRange_checkCall (b : Builtin) (inv : Invocation) (args : List Register)
    (out : Register) : (b.checkCall inv args out).InRange := by
  refine (inRange_checkTypes _ _).bind fun _ _ => Outcome.inRange_check fun _ => ?_
  split
  · exact Outcome.inRange_mismatch _
  · exact Outcome.inRange_ok _

/-- Why a call may fail. -/
inductive Refused (b : Builtin) (inv : Invocation) (args : List Register) (out : Register) : Prop
  | notImplemented (h : b.body.runtime.isImplemented = false)
  | arguments (h : args.map Register.type ≠ b.signature.params)
  | result (h : out.type ≠ b.signature.result)
  | rows {x : Register} (hx : x ∈ args ++ [out]) (h : x.rows ≠ inv.chain.rows)
  | texture {how : Addressing} (hb : b.body = textureLookup how b.signature) {sampler : Register}
      {rest : List Register} (hargs : args = sampler :: rest) {r : Nat}
      (h : Missing inv sampler r)

/-- A call that is not refused has a body, and fits. -/
theorem fits_of_not_refused (hargs : ∀ x ∈ args, x.WellFormed) (hout : out.WellFormed)
    (h : ¬Refused b inv args out) :
    b.body.runtime.isImplemented = true ∧ Fits b.signature inv.chain.rows args out := by
  have hrows : ∀ x ∈ args ++ [out], x.rows = inv.chain.rows := fun x hx =>
    by_contra fun hne => h (.rows hx hne)
  refine ⟨by_contra fun hno => h (.notImplemented (Bool.eq_false_iff.2 hno)), ?_⟩
  exact {
    params := by_contra fun hne => h (.arguments hne)
    result := by_contra fun hne => h (.result hne)
    args_wellFormed := hargs
    args_rows := fun x hx => hrows x (List.mem_append_left _ hx)
    out_wellFormed := hout
    out_rows := hrows out (List.mem_append_right _ List.mem_cons_self) }

/-- A lookup that is not refused has a texture for each live row. -/
theorem supplied_of_not_refused {how : Addressing} {s : Signature} {sampler coords : Register}
    {rest : List Register} (h : ¬Refused ⟨s, textureLookup how s⟩ inv (sampler :: rest) out)
    (hoperands : Operands how inv.chain.rows sampler coords out) :
    ∀ r ∈ inv.chain.visited, Supplied inv sampler r := by
  rcases supplied_or_missing hoperands with hsupplied | ⟨r, hmissing, -⟩
  · exact hsupplied
  · exact absurd (.texture rfl rfl hmissing) h

/-- A call that is refused leaves the result as it was. -/
theorem execute_refused (hb : Catalogued b) (hargs : ∀ x ∈ args, x.WellFormed)
    (hout : out.WellFormed) (h : Refused b inv args out) :
    ∃ e, (b.execute inv args).run out = .error (.error e) out := by
  cases hrun : b.body.runtime with
  | noConstantForm =>
    refine ⟨.unimplemented b.signature, ?_⟩
    unfold execute
    rw [hrun]
    rfl
  | notImplemented =>
    refine ⟨.unimplemented b.signature, ?_⟩
    unfold execute
    rw [hrun]
    rfl
  | implemented run =>
    cases hcheck : b.checkCall inv args out with
    | error f =>
      obtain ⟨e, rfl⟩ := (inRange_checkCall b inv args out).exists_error hcheck
      exact ⟨e, execute_of_check_error hrun hcheck⟩
    | ok _ =>
      obtain ⟨hparams, hresult, hrows⟩ := checkCall_eq_ok.1 hcheck
      cases h with
      | notImplemented h =>
        rw [hrun] at h
        cases h
      | arguments h => exact absurd hparams h
      | result h => exact absurd hresult h
      | rows hx h => exact absurd (hrows _ hx) h
      | @texture how hbody sampler rest hargs' r hmissing =>
        subst hargs'
        have hfits := fits_of_checkCall hargs hout hcheck
        cases hb with
        | agree hboth =>
          rw [hasBothSlots, hbody] at hboth
          cases hboth
        | @texture s how₀ hs =>
          obtain ⟨_, coords, rest', heq, hlen, hoperands⟩ := hs.exists_operands hfits
          cases heq
          rcases supplied_or_missing hoperands with hsupplied | ⟨q, hq, hbefore⟩
          · obtain ⟨hr, unit, hunit, hnone⟩ := hmissing
            obtain ⟨unit', hunit', hbound⟩ := hsupplied r hr
            rw [hunit, Option.some.injEq] at hunit'
            exact absurd (hunit' ▸ hbound) hnone
          · obtain ⟨hqlive, unit, hunit, hnone⟩ := hq
            refine ⟨.textureUnit unit how₀.samplerType, ?_⟩
            rw [execute_textureLookup hlen hfits]
            exact lookUp_eq_error hoperands hqlive hunit hnone hbefore
        | missing s => cases hrun

/-- Any other call succeeds or goes out of range. -/
theorem execute_of_not_refused (hb : Catalogued b) (hargs : ∀ x ∈ args, x.WellFormed)
    (hout : out.WellFormed) (h : ¬Refused b inv args out) :
    (∃ out', (b.execute inv args).run out = .ok () out') ∨
      (b.execute inv args).run out = .error .outOfRange out := by
  obtain ⟨himplemented, hfits⟩ := fits_of_not_refused hargs hout h
  cases hb with
  | agree _ hagree hstray =>
    by_cases hc : inv.chain.Closed
    · obtain ⟨out', hrun, -⟩ := hagree inv args out hc hfits
      exact .inl ⟨out', hrun⟩
    · exact .inr (hstray inv args out hc hfits)
  | @texture s how hs =>
    obtain ⟨sampler, coords, rest, rfl, hlen, hoperands⟩ := hs.exists_operands hfits
    rw [execute_textureLookup hlen hfits]
    exact lookUp_of_supplied hoperands (supplied_of_not_refused h hoperands)
  | missing s => cases himplemented

/-- It succeeds, if its chain stays inside the batch and its textures have a texel for each
place. -/
theorem exists_execute (hb : Catalogued b) (hc : inv.chain.Closed)
    (hfull : ∀ textures, inv.textures = some textures → textures.Full)
    (hargs : ∀ x ∈ args, x.WellFormed) (hout : out.WellFormed) (h : ¬Refused b inv args out) :
    ∃ out', (b.execute inv args).run out = .ok () out' := by
  obtain ⟨himplemented, hfits⟩ := fits_of_not_refused hargs hout h
  cases hb with
  | agree _ hagree =>
    obtain ⟨out', hrun, -⟩ := hagree inv args out hc hfits
    exact ⟨out', hrun⟩
  | @texture s how hs =>
    obtain ⟨sampler, coords, rest, rfl, hlen, hoperands⟩ := hs.exists_operands hfits
    have hsupplied := supplied_of_not_refused h hoperands
    rw [execute_textureLookup hlen hfits]
    refine exists_lookUp hoperands hc hsupplied fun r hr => ?_
    obtain ⟨texture, htexture, htype⟩ := (hsupplied r hr).exists_textureAt
    exact exists_sampleAt hoperands hr htexture htype (htexture.full hfull)
  | missing s => cases himplemented

/-- The calls of the standard registry are all or nothing. Whatever the chain is, the policy, the
textures, the arguments and the result, a call fails exactly if it is refused, and then leaves the
result as it was. Over a chain that stays inside the batch, and with textures that have a texel for
each place, any other call succeeds. -/
theorem execute_fails_iff_refused {registry : Registry Implementation}
    (h : standard = .ok registry) {b : Builtin} (hb : b ∈ registry.overloads) {inv : Invocation}
    {args : List Register} (hargs : ∀ x ∈ args, x.WellFormed) {out : Register}
    (hout : out.WellFormed) :
    ((∃ e out', (b.execute inv args).run out = .error (.error e) out') ↔
      Refused b inv args out) ∧
    (∀ e out', (b.execute inv args).run out = .error (.error e) out' → out' = out) ∧
    (inv.chain.Closed → (∀ textures, inv.textures = some textures → textures.Full) →
      ¬Refused b inv args out → ∃ out', (b.execute inv args).run out = .ok () out') := by
  have hcat := catalogued_of_mem h hb
  have hfails : ∀ e out', (b.execute inv args).run out = .error (.error e) out' →
      Refused b inv args out := by
    intro e out' hrun
    by_contra hno
    obtain ⟨_, hok⟩ | hstray := execute_of_not_refused hcat hargs hout hno
    · cases hok.symm.trans hrun
    · cases hstray.symm.trans hrun
  refine ⟨⟨fun ⟨e, out', hrun⟩ => hfails e out' hrun, fun hrefused => ?_⟩, ?_, ?_⟩
  · obtain ⟨e, hrun⟩ := execute_refused hcat hargs hout hrefused
    exact ⟨e, out, hrun⟩
  · intro e out' hrun
    obtain ⟨_, hsame⟩ := execute_refused hcat hargs hout (hfails e out' hrun)
    rw [hsame] at hrun
    cases hrun
    rfl
  · exact fun hc hfull hno => exists_execute hcat hc hfull hargs hout hno

theorem execute_fails_iff_refused_radians :
    let inv : Invocation := ⟨⟨.build 2 [0], .wide8⟩, none⟩
    let x : Register := .zeroed .float 2
    ∃ registry, ∃ b : Builtin, standard = .ok registry ∧ b ∈ registry.overloads ∧
      b.signature = ⟨.float, "radians", [.float]⟩ ∧ Refused b inv [.zeroed .float 3] x ∧
      (b.execute inv [.zeroed .float 3]).run x = .error (.error (.typeMismatch (.rows 2 3))) x ∧
      ¬Refused b inv [x] x ∧ ∃ out, (b.execute inv [x]).run x = .ok () out := by
  intro inv x
  obtain ⟨registry, hreg, -⟩ := exists_standard
  let b : Builtin := ⟨⟨.float, "radians", [.float]⟩, float1 Binary32.radians ⟨.float, "radians",
    [.float]⟩⟩
  have hmem : b ∈ registry.overloads :=
    Registry.first_mem_build (d := ⟨.placeholder .genType, "radians", [.placeholder .genType]⟩)
      (by decide +kernel) rfl hreg
  have hargs : ∀ rows, ∀ y ∈ [Register.zeroed .float rows], y.WellFormed := by
    intro rows y hy
    rw [List.mem_singleton.1 hy]
    exact Register.zeroed_wellFormed .float rows
  have hiff := fun rows =>
    @execute_fails_iff_refused registry hreg b hmem inv _ (hargs rows) x
      (Register.zeroed_wellFormed .float 2)
  obtain ⟨out, hrun, -⟩ := Stateful.exists_run_eq_ok (x := b.execute inv [x]) (s := x)
    (P := fun _ => true) (by decide +kernel)
  refine ⟨registry, b, hreg, hmem, rfl, (hiff 3).1.1 ⟨_, _, rfl⟩, rfl, fun h => ?_, out, hrun⟩
  obtain ⟨e, out', herror⟩ := (hiff 2).1.2 h
  cases hrun.symm.trans herror

end BatchShader.Builtin
