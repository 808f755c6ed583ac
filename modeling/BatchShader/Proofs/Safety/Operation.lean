import BatchShader.Proofs.InRange
import BatchShader.Proofs.Operation
import BatchShader.Proofs.Result

/-
  Operations stay inside their registers.

  `Register.Spans x rows`: the register `x` is one for a batch of `rows` rows. Over a chain that
  stays inside the batch, any operator, swizzle or constructor on such registers is in range and
  gives such a register, whatever the types and the annotation are. A lane that is missing or of
  another kind is noticed before it is read, and is then an error of the engine.
-/

namespace BatchShader

namespace Register

/-- A register for a batch of `rows` rows. -/
def Spans (x : Register) (rows : Nat) : Prop := x.WellFormed ∧ x.rows = rows

variable {x : Register} {rows i : Nat} {k : Kind}

theorem spans_zeroed (t : ShaderType) (rows : Nat) : (zeroed t rows).Spans rows :=
  ⟨zeroed_wellFormed t rows, rfl⟩

theorem Spans.kept {y : Register} {c : LiveChain} (h : x.Spans rows) (hkept : Kept c x y) :
    y.Spans rows := ⟨hkept.wellFormed h.1, hkept.rows_eq.trans h.2⟩

theorem Spans.size_of_mem (h : x.Spans rows) {l : Lane} (hl : l ∈ x.lanes) :
    l.column.size = rows := (h.1.rows_lane l hl).trans h.2

theorem Spans.lane (h : x.Spans rows) (k : Kind) (i : Nat) :
    (x.lane k i).Yields (·.size = rows) where
  inRange := by
    unfold Register.lane
    split
    · exact Outcome.inRange_ok _
    · exact Outcome.inRange_mismatch _
  holds column hcolumn := h.size_of_mem (List.mem_of_getElem? (lane_eq_ok.1 hcolumn))

/-- A lane may be replaced by one of its kind and length. -/
theorem Spans.setLane (h : x.Spans rows) {old new : Lane} (hold : x.lanes[i]? = some old)
    (hkind : new.kind = old.kind) (hsize : new.column.size = rows) :
    (x.setLane i new).Spans rows := by
  have hmem : ∀ l ∈ (x.setLane i new).lanes, l ∈ x.lanes ∨ l = new := fun l hl =>
    List.mem_or_eq_of_mem_set hl
  refine ⟨⟨?_, fun l hl => ?_, fun l hl => ?_⟩, h.2⟩
  · rw [Register.setLane, List.length_set]
    exact h.1.length_lanes
  · obtain hl | rfl := hmem l hl
    · exact h.1.kind_lane l hl
    · rw [hkind]
      exact h.1.kind_lane old (List.mem_of_getElem? hold)
  · obtain hl | rfl := hmem l hl
    · exact h.1.rows_lane l hl
    · exact hsize.trans h.2.symm

theorem Spans.modifyLane (h : x.Spans rows) {f : Array k.Elem → Outcome (Array k.Elem)}
    (hf : ∀ old, old.size = rows → (f old).Yields (·.size = rows)) :
    (x.modifyLane k i f).Yields (·.Spans rows) := by
  refine (h.lane k i).bind fun old hold hsize => (hf old hsize).bind fun new _ hnew => ?_
  exact Outcome.yields_ok (h.setLane (lane_eq_ok.1 hold) rfl hnew)

end Register

namespace Sweep

variable {s : Sweep} {α β γ : Type}

open Outcome (Yields yields_ok yields_mismatch yields_check yields_foldlM yields_of_exists)

/-! ## Sweeps -/

section Sweeps

variable (hc : s.chain.Closed) {a : Array α} {b : Array γ} {out : Array β}
  (ha : a.size = s.chain.rows) (hb : b.size = s.chain.rows) (hout : out.size = s.chain.rows)

include hc hout

/-- A sweep with a step at each live row goes through. -/
theorem yields_apply (step : RowStep β) (h : ∀ r ∈ s.chain.visited, ∀ x, ∃ y, step r x = .ok y) :
    (s.apply step out).Yields (·.size = s.chain.rows) := by
  obtain ⟨new, hnew, hwrote⟩ := exists_wrote hc step hout h
  exact yields_of_exists ⟨new, hnew, hwrote.size_eq.trans hout⟩

include ha

theorem yields_map1 (op : α → β) : (s.map1 a out op).Yields (·.size = s.chain.rows) := by
  refine yields_apply hc hout _ fun r hr _ => ?_
  obtain ⟨x, hx⟩ := LiveChain.exists_getElem?_of_mem_visited ha hr
  exact ⟨op x, Outcome.bind_eq_ok.2 ⟨x, rowOf_eq_ok.2 hx, rfl⟩⟩

include hb

theorem yields_map2 (op : α → γ → β) : (s.map2 a b out op).Yields (·.size = s.chain.rows) := by
  refine yields_apply hc hout _ fun r hr _ => ?_
  obtain ⟨x, hx⟩ := LiveChain.exists_getElem?_of_mem_visited ha hr
  obtain ⟨y, hy⟩ := LiveChain.exists_getElem?_of_mem_visited hb hr
  exact ⟨op x y, Outcome.bind_eq_ok.2 ⟨x, rowOf_eq_ok.2 hx,
    Outcome.bind_eq_ok.2 ⟨y, rowOf_eq_ok.2 hy, rfl⟩⟩⟩

theorem yields_update2 (op : β → α → γ → β) :
    (s.update2 out a b op).Yields (·.size = s.chain.rows) := by
  refine yields_apply hc hout _ fun r hr old => ?_
  obtain ⟨x, hx⟩ := LiveChain.exists_getElem?_of_mem_visited ha hr
  obtain ⟨y, hy⟩ := LiveChain.exists_getElem?_of_mem_visited hb hr
  exact ⟨op old x y, Outcome.bind_eq_ok.2 ⟨x, rowOf_eq_ok.2 hx,
    Outcome.bind_eq_ok.2 ⟨y, rowOf_eq_ok.2 hy, rfl⟩⟩⟩

end Sweeps

/-! ## Operators -/

section Operators

variable (hc : s.chain.Closed) {x y out : Register} (hx : x.Spans s.chain.rows)
  (hy : y.Spans s.chain.rows) (hout : out.Spans s.chain.rows)

theorem spans_blank (t : ShaderType) : (s.blank t).Spans s.chain.rows :=
  Register.spans_zeroed t s.chain.rows

include hc hx

theorem yields_unary (op : UnaryOp) (t : ShaderType) :
    (s.unary op x t).Yields (·.Spans s.chain.rows) := by
  refine yields_check fun _ => ?_
  split
  · exact yields_ok (spans_blank t)
  · next k _ =>
    split
    · exact yields_mismatch _
    · refine yields_foldlM (fun i _ out hout => ?_) (spans_blank t)
      refine (hx.lane k i).bind fun xs _ hxs => hout.modifyLane fun ys hys => ?_
      exact yields_map1 hc hxs hys _

include hy hout

theorem yields_zip {a b c : Kind} (op : a.Elem → b.Elem → c.Elem) :
    (s.zip x y out op).Yields (·.Spans s.chain.rows) := by
  refine yields_foldlM (fun i _ out hout => ?_) hout
  refine (hx.lane a _).bind fun xs _ hxs => (hy.lane b _).bind fun ys _ hys => ?_
  exact hout.modifyLane fun zs hzs => yields_map2 hc hxs hys hzs op

theorem yields_aggregate (k : Kind) (wanted : Bool) :
    (s.aggregate k wanted x y out).Yields (·.Spans s.chain.rows) := by
  have hfirst : (out.modifyLane .bool 0 fun acc => do
      s.map2 (← x.lane k 0) (← y.lane k 0) acc fun x y => k.equal x y == wanted).Yields
        (·.Spans s.chain.rows) :=
    hout.modifyLane fun acc hacc => (hx.lane k 0).bind fun xs _ hxs =>
      (hy.lane k 0).bind fun ys _ hys => yields_map2 hc hxs hys hacc _
  refine hfirst.bind fun first _ hfirst => yields_foldlM (fun i _ out hout => ?_) hfirst
  refine hout.modifyLane fun acc hacc => (hx.lane k i).bind fun xs _ hxs => ?_
  exact (hy.lane k i).bind fun ys _ hys => yields_update2 hc hxs hys hacc _

theorem yields_accumulateProducts (dst : Nat) (pairs : List (Nat × Nat)) :
    (s.accumulateProducts x y out dst pairs).Yields (·.Spans s.chain.rows) := by
  refine (hout.lane .float dst).bind fun old hold hsize => ?_
  have hsum : (pairs.foldlM (fun acc (a, b) => do
      s.update2 acc (← x.lane .float a) (← y.lane .float b) Binary32.dotStep) old).Yields
        (·.size = s.chain.rows) :=
    yields_foldlM (fun (a, b) _ acc hacc => (hx.lane .float a).bind fun xs _ hxs =>
      (hy.lane .float b).bind fun ys _ hys => yields_update2 hc hxs hys hacc _) hsize
  refine hsum.bind fun acc _ hacc => ?_
  exact yields_ok (hout.setLane (Register.lane_eq_ok.1 hold) rfl hacc)

theorem yields_linearProduct : (s.linearProduct x y out).Yields (·.Spans s.chain.rows) := by
  unfold linearProduct
  dsimp only
  generalize (if x.type.isMatrix = true then x.type.dimension else y.type.dimension) = n
  split
  · exact yields_foldlM
      (fun p _ out hout => yields_accumulateProducts hc hx hy hout p.1 p.2) hout
  · exact yields_mismatch _

theorem yields_componentwise (op : BinaryOp) (k : Kind) :
    (s.componentwise op k x y out).Yields (·.Spans s.chain.rows) := by
  obtain ⟨_, _, _, f, hf⟩ | ⟨wanted, hf⟩ | hf := componentwise_form op k <;> rw [hf]
  · exact yields_zip hc hx hy hout f
  · split
    · exact yields_aggregate hc hx hy hout k wanted
    · exact yields_mismatch _
  · exact yields_mismatch _

omit hout

theorem yields_binary (op : BinaryOp) (t : ShaderType) :
    (s.binary op x y t).Yields (·.Spans s.chain.rows) := by
  refine yields_check fun _ => ?_
  split
  · exact yields_linearProduct hc hx hy (spans_blank t)
  · split
    · exact yields_componentwise hc hx hy (spans_blank t) op _
    · exact yields_mismatch _

end Operators

/-! ## Integers -/

/-- On integers the operator gives what the low 32 bits of `exact` say, whatever the operands. -/
def Wraps (op : BinaryOp) (exact : Int → Int → Int) : Prop :=
  ∃ f : Int32 → Int32 → Int32,
    (∀ s x y out, componentwise s op .int x y out = s.zipInt x y out f) ∧
      ∀ m n, (f m n).toInt = (exact m.toInt n.toInt).bmod (2 ^ 32)

theorem wraps_add : Wraps .add fun m n => m + n := ⟨(· + ·), fun _ _ _ _ => rfl, Int32.toInt_add⟩

theorem wraps_sub : Wraps .sub fun m n => m - n := ⟨(· - ·), fun _ _ _ _ => rfl, Int32.toInt_sub⟩

theorem wraps_mul : Wraps .mul fun m n => m * n := ⟨(· * ·), fun _ _ _ _ => rfl, Int32.toInt_mul⟩

/-- Nothing is divided by zero: then the quotient is zero. -/
theorem wraps_div : Wraps .div fun m n => if n = 0 then 0 else m.tdiv n := by
  refine ⟨divideInt, fun _ _ _ _ => rfl, fun m n => ?_⟩
  show (divideInt m n).toInt =
    (if n.toInt = 0 then 0 else m.toInt.tdiv n.toInt).bmod (2 ^ 32)
  unfold divideInt
  by_cases hzero : n = 0
  · rw [if_pos hzero, hzero]
    rfl
  · have hne : n.toInt ≠ 0 := by
      intro h
      exact hzero (Int32.toInt_inj.1 h)
    rw [if_neg hzero, if_neg hne]
    exact Int32.toInt_div m n

/-! ## Conversions, swizzles and constructors -/

section Conversions

variable (hc : s.chain.Closed) {x out : Register} (hx : x.Spans s.chain.rows)
  (hout : out.Spans s.chain.rows) {src : Lane} (hsrc : src.column.size = s.chain.rows)

include hc

theorem yields_fillOneInto (hout : out.Spans s.chain.rows) (i : Nat) :
    (s.fillOneInto out i).Yields (·.Spans s.chain.rows) := by
  unfold fillOneInto
  split
  · next dst hdst =>
    have hsize := hout.size_of_mem (List.mem_of_getElem? hdst)
    have hfill : (s.fillOne dst).Yields fun l =>
        l.kind = dst.kind ∧ l.column.size = s.chain.rows :=
      (yields_apply hc hsize _ fun _ _ _ => ⟨_, rfl⟩).bind fun column _ hcolumn =>
        yields_ok ⟨rfl, hcolumn⟩
    exact hfill.bind fun l _ hl => yields_ok (hout.setLane hdst hl.1 hl.2)
  · exact yields_ok hout

include hsrc hout

theorem yields_convertInto (i : Nat) :
    (s.convertInto src out i).Yields (·.Spans s.chain.rows) := by
  unfold convertInto
  split
  · next dst hdst =>
    have hsize := hout.size_of_mem (List.mem_of_getElem? hdst)
    have hconvert : (s.convertLane src dst).Yields fun l =>
        l.kind = dst.kind ∧ l.column.size = s.chain.rows :=
      (yields_map1 hc hsrc hsize _).bind fun column _ hcolumn => yields_ok ⟨rfl, hcolumn⟩
    exact hconvert.bind fun l _ hl => yields_ok (hout.setLane hdst hl.1 hl.2)
  · exact yields_ok hout

omit hsrc

/-- Lanes of the length of the batch, converted one after the other. -/
theorem yields_convertAll {lanes : List (Lane × Nat)}
    (h : ∀ p ∈ lanes, p.1.column.size = s.chain.rows) :
    (lanes.foldlM (fun out (src, i) => s.convertInto src out i) out).Yields
      (·.Spans s.chain.rows) :=
  yields_foldlM (fun p hp _ hout => yields_convertInto hc hout (h p hp) p.2) hout

omit hout

include hx

theorem yields_swizzle (indices : List UInt8) (t : ShaderType) :
    (s.swizzle x indices t).Yields (·.Spans s.chain.rows) := by
  refine yields_check fun _ => yields_foldlM (fun p _ out hout => ?_) (spans_blank t)
  dsimp only
  split
  · next src hsrc =>
    exact yields_convertInto hc hout (hx.size_of_mem (List.mem_of_getElem? hsrc)) p.2
  · exact yields_mismatch _

theorem yields_constructFromScalar (hscalar : x.type.isScalar = true) (t : ShaderType) :
    (s.constructFromScalar t x).Yields (·.Spans s.chain.rows) := by
  have hlen : 0 < x.lanes.length := by
    rw [hx.1.length_lanes]
    exact ShaderType.components_of_isScalar hscalar ▸ Nat.one_pos
  have hmem := List.getElem_mem hlen
  rw [constructFromScalar, List.getElem?_eq_getElem hlen, Outcome.require_some, Outcome.ok_bind]
  exact yields_foldlM
    (fun i _ out hout => yields_convertInto hc hout (hx.size_of_mem hmem) i) (spans_blank t)

theorem yields_constructFromMatrix (hmatrix : x.type.isMatrix = true) (t : ShaderType) :
    (s.constructFromMatrix t x).Yields (·.Spans s.chain.rows) := by
  refine yields_foldlM (fun p _ out hout => ?_) (spans_blank t)
  dsimp only
  split
  · next hin =>
    have hlt : p.1 * x.type.dimension + p.2 < x.lanes.length := by
      rw [hx.1.length_lanes, ShaderType.components_of_isMatrix hmatrix]
      have := Nat.mul_le_mul_right x.type.dimension (Nat.succ_le_of_lt hin.1)
      rw [Nat.succ_mul] at this
      omega
    rw [List.getElem?_eq_getElem hlt, Outcome.require_some, Outcome.ok_bind]
    exact yields_convertInto hc hout (hx.size_of_mem (List.getElem_mem hlt)) _
  · split
    · exact yields_fillOneInto hc hout _
    · exact yields_ok hout

omit hx

theorem yields_constructFromComponents {args : List Register}
    (hargs : ∀ x ∈ args, x.Spans s.chain.rows) (t : ShaderType) :
    (s.constructFromComponents t args).Yields (·.Spans s.chain.rows) := by
  refine yields_check fun _ => yields_convertAll hc (spans_blank t) fun p hp => ?_
  have hmem : p.1 ∈ args.flatMap Register.lanes :=
    List.mem_of_mem_take (List.fst_mem_of_mem_zipIdx hp)
  obtain ⟨x, hx, hlane⟩ := List.mem_flatMap.1 hmem
  exact (hargs x hx).size_of_mem hlane

theorem yields_construct {args : List Register} (hargs : ∀ x ∈ args, x.Spans s.chain.rows)
    (t : ShaderType) : (s.construct t args).Yields (·.Spans s.chain.rows) := by
  unfold construct
  split
  · next x =>
    have hx := hargs x List.mem_cons_self
    split
    · next hscalar => exact yields_constructFromScalar hc hx hscalar t
    · split
      · next hmatrix =>
        rw [Bool.and_eq_true] at hmatrix
        exact yields_constructFromMatrix hc hx hmatrix.1 t
      · exact yields_constructFromComponents hc hargs t
  · exact yields_constructFromComponents hc hargs t

end Conversions

end Sweep

end BatchShader
