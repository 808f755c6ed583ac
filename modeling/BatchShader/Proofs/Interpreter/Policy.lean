import BatchShader.Proofs.Builtin.Policy
import BatchShader.Proofs.Interpreter.Statement

/-
  The path policy does not matter to a run.

  The standard overloads ignore the policy, so calls do the same under any two policies
  (`sameCalls_paths`), and then expressions, statements and whole runs do: `run_paths` is an
  equation between the result and the batch left by one run and by the other, failures included.
  Nothing is asked of the batch.
-/

namespace BatchShader.Interpreter

/-- Under settings that differ in the policy only, calls of the standard overloads do the same. -/
theorem sameCalls_paths {registry : Registry Implementation}
    (hregistry : Builtin.standard = .ok registry) (config config' : Config) :
    SameCalls ⟨registry, config⟩ ⟨registry, config'⟩ := by
  intro b c name args t
  unfold call
  cases ho : registry.lookup name (args.map Register.type) with
  | error e => rfl
  | ok o =>
    have hignores := Builtin.ignoresPaths_of_mem hregistry (Registry.mem_of_lookup ho)
    have hsame : Builtin.execute o ⟨sweep ⟨registry, config'⟩ c, some b.textures⟩ args =
        Builtin.execute o ⟨sweep ⟨registry, config⟩ c, some b.textures⟩ args :=
      Builtin.execute_paths hignores (by rfl) (by rfl) args
    simp only [Outcome.ok_bind, hsame]

/-- Under two settings that differ in the path policy only, a run of any shader on any batch has the
same result and leaves the same batch, whether it succeeds or fails half-way. -/
theorem run_paths {registry : Registry Implementation}
    (hregistry : Builtin.standard = .ok registry) {config config' : Config}
    (hrows : config'.batchRows = config.batchRows)
    (hfold : config'.foldConstants = config.foldConstants) (shader : Shader) (b : Batch) :
    ((Interpreter.mk registry config').run shader).run b =
      ((Interpreter.mk registry config).run shader).run b := by
  have hbody : bodyOf ⟨registry, config'⟩ shader = bodyOf ⟨registry, config⟩ shader := by
    simp only [bodyOf, hfold]
  have hcalls := sameCalls_paths hregistry config config'
  rw [run_eq, run_eq, hbody]
  simp only [hrows, hcalls.execBlock_eq]

theorem run_paths_failing :
    let registry := Builtin.standardRegistry
    let lit : Expr := .const ⟨.bool, ⟨.bool, [true]⟩, rfl, rfl⟩
    let shader : Shader := ⟨.fragment, [.assign "shade" none (.unary .not lit .bool),
      .assign "color" (some [0]) lit]⟩
    ∃ b b', Batch.new 9 = .ok b ∧
      ((Interpreter.mk registry { Config.standard with paths := .scalar }).run shader).run b =
        .error (.error (.unknownVariable "color")) b' ∧ b'.store.contains "shade" = true ∧
      ((Interpreter.mk registry Config.standard).run shader).run b =
        .error (.error (.unknownVariable "color")) b' := by
  intro registry lit shader
  let b := Batch.ofChain (.build 9 (List.range 9))
  obtain ⟨e, b', hrun, hend⟩ := Stateful.exists_run_eq_error
    (x := (Interpreter.mk registry { Config.standard with paths := .scalar }).run shader) (s := b)
    (P := fun e b' => decide (e = .error (.unknownVariable "color")) && b'.store.contains "shade")
    (by decide +kernel)
  rw [Bool.and_eq_true, decide_eq_true_eq] at hend
  obtain ⟨rfl, hshade⟩ := hend
  have hsame :
      ((Interpreter.mk registry { Config.standard with paths := .scalar }).run shader).run b =
        ((Interpreter.mk registry Config.standard).run shader).run b :=
    run_paths Builtin.standard_eq_ok (by rfl) (by rfl) shader b
  exact ⟨b, b', rfl, hrun, hshade, hsame ▸ hrun⟩

end BatchShader.Interpreter
