import BatchShader.Proofs.Builtin.Standard
import BatchShader.Proofs.Policy

/-
  The path policy does not matter to a call.

  `IgnoresPaths i`: the batch form of an implementation reads of an invocation its chain and its
  textures only. Each form of the catalogue's implementations does, whatever its signature, since it
  consists of sweeps; hence so does every overload of the standard registry, together with the
  checks made before it runs (`execute_paths`).
-/

namespace BatchShader

namespace Registry

variable {ι : Type} {P : Overload ι → Prop}

/-- What holds of every signature with the implementation of its line holds of all overloads of the
table's registry. -/
theorem forall_of_build {table : List (String × (Signature → ι))} {r : Registry ι}
    (h : ∀ line ∈ table, ∀ s, P ⟨s, line.2 s⟩) (hr : build table = .ok r) :
    ∀ o ∈ r.overloads, P o := by
  intro o ho
  obtain ⟨line, hline, _, -, s, -, rfl⟩ := mem_of_build hr ho
  exact h line hline s

end Registry

namespace Builtin

/-- Whatever two invocations with the same chain and the same textures are, the batch form does the
same in both. -/
def IgnoresPaths (i : Implementation) : Prop :=
  ∀ run, i.runtime = .implemented run → ∀ inv inv' : Invocation, inv'.chain = inv.chain →
    inv'.textures = inv.textures → ∀ args, run inv' args = run inv args

/-! ## The forms of the catalogue -/

theorem ignoresPaths_componentwise {k : Kind} (ks : List Kind) (f : ElemFun k ks)
    (s : Signature) : IgnoresPaths (componentwise ks f s) := by
  intro run hrun inv inv' hc _ args
  cases hrun
  simp only [Sweep.map_paths hc]

theorem ignoresPaths_reduce {k : Kind} (op : k.Elem → k.Elem → k.Elem) (s : Signature) :
    IgnoresPaths (reduce op s) := by
  intro run hrun inv inv' hc _ args
  cases hrun
  simp only [Sweep.map1_paths hc, Sweep.update1_paths hc]

theorem sumLanes_paths {sweep sweep' : Sweep} (hc : sweep'.chain = sweep.chain)
    (x y : Register) (step : SumStep) (finish : Binary32 → Binary32) :
    sumLanes sweep' x y step finish = sumLanes sweep x y step finish := by
  funext acc
  simp only [sumLanes, Sweep.map1_paths hc, Sweep.update2_paths hc]

theorem ignoresPaths_pairSum (step : SumStep) (finish : Binary32 → Binary32) (s : Signature) :
    IgnoresPaths (pairSum step finish s) := by
  intro run hrun inv inv' hc _ args
  cases hrun
  simp only [sumLanes_paths hc]

theorem ignoresPaths_normalize (s : Signature) : IgnoresPaths (normalize s) := by
  intro run hrun inv inv' hc _ args
  cases hrun
  simp only [sumLanes_paths hc, Sweep.map2_paths hc]

theorem ignoresPaths_cross (s : Signature) : IgnoresPaths (cross s) := by
  intro run hrun inv inv' hc _ args
  cases hrun
  simp only [Sweep.map4_paths hc]

theorem ignoresPaths_faceforward (s : Signature) : IgnoresPaths (faceforward s) := by
  intro run hrun inv inv' hc _ args
  cases hrun
  simp only [sumLanes_paths hc, Sweep.map2_paths hc]

theorem ignoresPaths_missing : IgnoresPaths .missing := fun _ hrun => nomatch hrun

section Lookups

variable {inv inv' : Invocation} (hc : inv'.chain = inv.chain)

include hc

theorem sampleRows_paths (how : Addressing) (textures : TextureUnits) (first : Nat)
    (units : Array Int32) (coords : Register) :
    sampleRows how inv' textures first units coords =
      sampleRows how inv textures first units coords := by
  simp only [sampleRows, hc, Sweep.map_paths hc]

theorem writeColours_paths (colours : Array Rgba) :
    writeColours inv' colours = writeColours inv colours := by
  simp only [writeColours, Sweep.map1_paths hc]

theorem lookUp_paths (ht : inv'.textures = inv.textures) (how : Addressing)
    (sampler coords : Register) :
    lookUp how inv' sampler coords = lookUp how inv sampler coords := by
  simp only [lookUp, hc, ht, sampleRows_paths hc, writeColours_paths hc]

end Lookups

theorem ignoresPaths_textureLookup (how : Addressing) (s : Signature) :
    IgnoresPaths (textureLookup how s) := by
  intro run hrun inv inv' hc ht args
  cases hrun
  simp only [lookUp_paths hc ht]

/-! ## The standard registry -/

theorem catalogue_ignoresPaths : ∀ line ∈ catalogue, ∀ s, IgnoresPaths (line.2 s) := by
  intro line hline s
  simp only [catalogue, List.mem_append] at hline
  obtain (((((h | h) | h) | h) | h) | h) | h := hline
  · unfold trigonometry at h
    fin_cases h <;> exact ignoresPaths_componentwise _ _ s
  · unfold exponentials at h
    fin_cases h <;> exact ignoresPaths_componentwise _ _ s
  · unfold commonFunctions at h
    fin_cases h <;> exact ignoresPaths_componentwise _ _ s
  · unfold geometry at h
    fin_cases h
    · exact ignoresPaths_pairSum _ _ s
    · exact ignoresPaths_pairSum _ _ s
    · exact ignoresPaths_pairSum _ _ s
    · exact ignoresPaths_cross s
    · exact ignoresPaths_normalize s
    · exact ignoresPaths_faceforward s
    · exact ignoresPaths_missing
    · exact ignoresPaths_missing
  · rw [matrices, List.mem_singleton] at h
    subst h
    exact ignoresPaths_componentwise _ _ s
  · unfold relations at h
    fin_cases h
    all_goals
      first
      | exact ignoresPaths_componentwise _ _ s
      | exact ignoresPaths_reduce _ s
  · unfold textureLookups at h
    fin_cases h <;> exact ignoresPaths_textureLookup _ s

/-- A call of an overload that ignores the policy does the same under every policy. -/
theorem execute_paths {b : Builtin} (hb : IgnoresPaths b.body) {inv inv' : Invocation}
    (hc : inv'.chain = inv.chain) (ht : inv'.textures = inv.textures) (args : List Register) :
    b.execute inv' args = b.execute inv args := by
  have hcheck : ∀ out, b.checkCall inv' args out = b.checkCall inv args out := fun out => by
    simp only [checkCall, hc]
  unfold execute
  cases hrun : b.body.runtime with
  | implemented run => simp only [hcheck, hb run hrun inv inv' hc ht]
  | noConstantForm => rfl
  | notImplemented => rfl

theorem ignoresPaths_of_mem {registry : Registry Implementation} (h : standard = .ok registry)
    {b : Builtin} (hb : b ∈ registry.overloads) : IgnoresPaths b.body :=
  Registry.forall_of_build (P := fun b => IgnoresPaths b.body) catalogue_ignoresPaths h b hb

end Builtin

end BatchShader
