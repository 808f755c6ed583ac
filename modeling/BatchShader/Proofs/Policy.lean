import BatchShader.Proofs.Operation

/-
  The path policy does not matter to a sweep.

  Over a closed chain a sweep changes the visited rows in turn, whatever the policy. Over any other
  chain there are no runs, and it fails before it changes anything. So two sweeps over one chain do
  the same (`apply_paths`), and with them the operators, swizzles and constructors, which consist of
  sweeps: the same register, or the same failure.
-/

namespace BatchShader.Sweep

variable {s s' : Sweep} {α β γ δ ε : Type} (h : s'.chain = s.chain)

include h

/-! ## Sweeps -/

/-- Sweeps over one chain do the same. -/
theorem apply_paths (step : RowStep β) (out : Array β) : s'.apply step out = s.apply step out := by
  by_cases hc : s.chain.Closed
  · have hc' : s'.chain.Closed := h ▸ hc
    rw [apply_eq_atRows hc', apply_eq_atRows hc, h]
  · rw [apply, apply, h, LiveChain.runs_eq_error hc, LiveChain.runs_eq_error hc]

theorem map_paths (f : Nat → Outcome β) (out : Array β) : s'.map f out = s.map f out :=
  apply_paths h _ out

theorem map1_paths (a : Array α) (out : Array β) (op : α → β) :
    s'.map1 a out op = s.map1 a out op := map_paths h _ out

theorem map2_paths (a : Array α) (b : Array γ) (out : Array β) (op : α → γ → β) :
    s'.map2 a b out op = s.map2 a b out op := map_paths h _ out

theorem map4_paths (a : Array α) (b : Array γ) (c : Array δ) (d : Array ε) (out : Array β)
    (op : α → γ → δ → ε → β) : s'.map4 a b c d out op = s.map4 a b c d out op :=
  map_paths h _ out

theorem update1_paths (acc : Array β) (a : Array α) (op : β → α → β) :
    s'.update1 acc a op = s.update1 acc a op := apply_paths h _ acc

theorem update2_paths (acc : Array β) (a : Array α) (b : Array γ) (op : β → α → γ → β) :
    s'.update2 acc a b op = s.update2 acc a b op := apply_paths h _ acc

theorem blank_paths (t : ShaderType) : s'.blank t = s.blank t := by rw [blank, blank, h]

/-! ## Operators -/

theorem unary_paths (op : UnaryOp) (x : Register) (t : ShaderType) :
    s'.unary op x t = s.unary op x t := by
  simp only [unary, blank_paths h, map1_paths h]

theorem zip_paths {a b c : Kind} (x y out : Register) (op : a.Elem → b.Elem → c.Elem) :
    s'.zip x y out op = s.zip x y out op := by
  simp only [zip, map2_paths h]

theorem aggregate_paths (k : Kind) (wanted : Bool) (x y out : Register) :
    s'.aggregate k wanted x y out = s.aggregate k wanted x y out := by
  simp only [aggregate, map2_paths h, update2_paths h]

theorem accumulateProducts_paths (x y out : Register) (dst : Nat) (pairs : List (Nat × Nat)) :
    s'.accumulateProducts x y out dst pairs = s.accumulateProducts x y out dst pairs := by
  simp only [accumulateProducts, update2_paths h]

theorem linearProduct_paths (x y out : Register) :
    s'.linearProduct x y out = s.linearProduct x y out := by
  simp only [linearProduct, accumulateProducts_paths h]

theorem componentwise_paths (op : BinaryOp) (k : Kind) (x y out : Register) :
    s'.componentwise op k x y out = s.componentwise op k x y out := by
  obtain ⟨_, _, _, _, hf⟩ | ⟨_, hf⟩ | hf := componentwise_form op k
  · rw [hf, hf, zip_paths h]
  · rw [hf, hf, aggregate_paths h]
  · rw [hf, hf]

theorem binary_paths (op : BinaryOp) (x y : Register) (t : ShaderType) :
    s'.binary op x y t = s.binary op x y t := by
  simp only [binary, blank_paths h, linearProduct_paths h, componentwise_paths h]

/-! ## Conversions, swizzles, constructors -/

theorem convertInto_paths (src : Lane) (out : Register) (i : Nat) :
    s'.convertInto src out i = s.convertInto src out i := by
  simp only [convertInto, convertLane, map1_paths h]

theorem fillOneInto_paths (out : Register) (i : Nat) :
    s'.fillOneInto out i = s.fillOneInto out i := by
  simp only [fillOneInto, fillOne, map_paths h]

theorem swizzle_paths (base : Register) (indices : List UInt8) (t : ShaderType) :
    s'.swizzle base indices t = s.swizzle base indices t := by
  simp only [swizzle, blank_paths h, convertInto_paths h]

theorem constructFromScalar_paths (t : ShaderType) (arg : Register) :
    s'.constructFromScalar t arg = s.constructFromScalar t arg := by
  simp only [constructFromScalar, blank_paths h, convertInto_paths h]

theorem constructFromMatrix_paths (t : ShaderType) (arg : Register) :
    s'.constructFromMatrix t arg = s.constructFromMatrix t arg := by
  simp only [constructFromMatrix, blank_paths h, convertInto_paths h, fillOneInto_paths h]

theorem constructFromComponents_paths (t : ShaderType) (args : List Register) :
    s'.constructFromComponents t args = s.constructFromComponents t args := by
  simp only [constructFromComponents, blank_paths h, convertInto_paths h]

theorem construct_paths (t : ShaderType) (args : List Register) :
    s'.construct t args = s.construct t args := by
  unfold construct
  simp only [constructFromScalar_paths h, constructFromMatrix_paths h,
    constructFromComponents_paths h]

end BatchShader.Sweep
