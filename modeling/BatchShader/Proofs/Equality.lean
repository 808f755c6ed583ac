import BatchShader.Proofs.Builtin.Relations
import BatchShader.Proofs.FloatEquality

/-
  Equality of registers.

  `==` and `!=` compare operands as wholes: a sweep for each component pair folds what it finds into
  one truth value, a conjunction for the one and a disjunction for the other. `EqualAt` is what they
  decide: all component pairs of the row compare equal. So the two are each other's negation, NaNs
  included, which equal nothing (`exists_aggregate`).

  For vectors there is a second way: `all` of `equal`, and `any` of `notEqual`, called one after the
  other. They leave the same register, or fail alike (`call_call`).
-/

namespace BatchShader

/-! ## Folds of truth values -/

section Folds

variable {p : Nat → Bool} {n : Nat}

theorem foldl_and (l : List Nat) (b : Bool) :
    l.foldl (fun acc i => acc && p i) b = (b && l.all p) := by
  induction l generalizing b with
  | nil => simp
  | cons i l ih => simp [ih, Bool.and_assoc]

theorem foldl_or (l : List Nat) (b : Bool) :
    l.foldl (fun acc i => acc || p i) b = (b || l.any p) := by
  induction l generalizing b with
  | nil => simp
  | cons i l ih => simp [ih, Bool.or_assoc]

theorem range_eq_cons (hn : 0 < n) : List.range n = 0 :: List.range' 1 (n - 1) := by
  obtain ⟨m, rfl⟩ := Nat.exists_eq_succ_of_ne_zero (Nat.ne_of_gt hn)
  rw [List.range_eq_range', List.range'_succ]
  rfl

/-- A conjunction over components, the first of which is at hand. -/
theorem foldl_and_range (hn : 0 < n) :
    (List.range' 1 (n - 1)).foldl (fun acc i => acc && p i) (p 0) = (List.range n).all p := by
  rw [foldl_and, range_eq_cons hn, List.all_cons]

theorem foldl_or_range (hn : 0 < n) :
    (List.range' 1 (n - 1)).foldl (fun acc i => acc || p i) (p 0) = (List.range n).any p := by
  rw [foldl_or, range_eq_cons hn, List.any_cons]

end Folds

/-- When two components compare equal: zeros of any signs do, and a NaN does with nothing. -/
def Kind.Equals : (k : Kind) → k.Elem → k.Elem → Prop
  | .float, x, y =>
    Binary32.isNaN x = false ∧ Binary32.isNaN y = false ∧
      (x = y ∨ Binary32.abs x = .zero ∧ Binary32.abs y = .zero)
  | .int, x, y => x = y
  | .bool, x, y => x = y

instance (k : Kind) (a b : k.Elem) : Decidable (k.Equals a b) :=
  match k with
  | .float => inferInstanceAs (Decidable (_ ∧ _ ∧ _))
  | .int => inferInstanceAs (Decidable (a = b))
  | .bool => inferInstanceAs (Decidable (a = b))

theorem Kind.equal_eq_true {k : Kind} {a b : k.Elem} : k.equal a b = true ↔ k.Equals a b := by
  cases k with
  | float => exact Binary32.eq_iff
  | int => exact beq_iff_eq
  | bool => exact beq_iff_eq

namespace Register

variable {x y : Register} {k : Kind} {i : Nat}

/-- Changes of one lane, one after the other, are one change of it. -/
theorem foldlM_modifyLane {ι : Type} {l : List ι} {f : ι → Array k.Elem → Outcome (Array k.Elem)}
    {old new : Array k.Elem} (hx : x.lane k i = .ok old)
    (hf : l.foldlM (fun a j => f j a) old = .ok new) :
    l.foldlM (fun out j => out.modifyLane k i (f j)) x = .ok (x.setLane i ⟨k, new⟩) := by
  induction l generalizing x old with
  | nil =>
    rw [← Except.ok.inj hf, setLane_self (lane_eq_ok.1 hx)]
    rfl
  | cons j l ih =>
    rw [List.foldlM_cons] at hf
    obtain ⟨mid, hmid, hf⟩ := Outcome.bind_eq_ok.1 hf
    have hstep : x.modifyLane k i (f j) = .ok (x.setLane i ⟨k, mid⟩) := by
      rw [modifyLane, hx, Outcome.ok_bind, hmid]
      rfl
    rw [List.foldlM_cons, hstep, Outcome.ok_bind, ih (lane_setLane_self hx) hf, setLane_setLane]

/-- Two registers that differ from a third at live rows only, and agree there, are the same. -/
theorem Kept.eq_of_component {z : Register} {rows : Nat} {c : LiveChain} (hy : Kept c x y)
    (hx : x.Spans rows) (hz : Kept c x z)
    (h : ∀ j < x.type.components, ∀ row ∈ c.visited, z.component? j row = y.component? j row) :
    z = y := by
  refine ext_of_component (hx.kept hy) (hx.kept hz) (hz.type_eq.trans hy.type_eq.symm)
    fun j hj row _ => ?_
  rw [hy.type_eq] at hj
  by_cases hrow : row ∈ c.visited
  · exact h j hj row hrow
  · rw [hz.component?_eq hrow, hy.component?_eq hrow]

/-- All component pairs of two registers compare equal at a row. -/
def EqualAt (x y : Register) (row : Nat) : Prop :=
  ∀ i < x.type.components, ∃ (k : Kind) (a b : k.Elem), x.component? i row = some ⟨k, a⟩ ∧
    y.component? i row = some ⟨k, b⟩ ∧ k.Equals a b

/-- Whether all pairs of the first components compare equal. -/
def allEqual (k : Kind) (n : Nat) (a b : Nat → k.Elem) : Bool :=
  (List.range n).all fun i => k.equal (a i) (b i)

theorem equalAt_iff {row : Nat} {a b : Nat → k.Elem} (ha : x.HoldsRow k row a)
    (hb : y.HoldsRow k row b) (ht : y.type = x.type) :
    EqualAt x y row ↔ allEqual k x.type.components a b = true := by
  rw [allEqual, List.all_eq_true]
  constructor
  · intro h i hi
    have hi' := List.mem_range.1 hi
    obtain ⟨k', a', b', ha', hb', heq⟩ := h i hi'
    cases ha'.symm.trans (ha i hi')
    cases hb'.symm.trans (hb i (ht ▸ hi'))
    exact Kind.equal_eq_true.2 heq
  · intro h i hi
    exact ⟨k, a i, b i, ha i hi, hb i (ht ▸ hi),
      Kind.equal_eq_true.1 (h i (List.mem_range.2 hi))⟩

end Register

/-! ## The operators -/

namespace Sweep

variable {s : Sweep} {l r : Register} {k : Kind} {wanted : Bool}

/-- The components that a register holds at the live rows. -/
def Holds (s : Sweep) (k : Kind) (x : Register) (e : Nat → Nat → k.Elem) : Prop :=
  ∀ row ∈ s.chain.visited, x.HoldsRow k row (e row)

theorem exists_holds {x : Register} (hx : x.Spans s.chain.rows) (hk : x.type.kind? = some k) :
    ∃ e, s.Holds k x e := by
  have hrows : ∀ row, ∃ e, row ∈ s.chain.visited → x.HoldsRow k row e := by
    intro row
    by_cases hrow : row ∈ s.chain.visited
    · obtain ⟨e, he⟩ := hx.exists_holdsRow hk (LiveChain.lt_rows_of_mem_visited hrow)
      exact ⟨e, fun _ => he⟩
    · exact ⟨fun _ => k.zero, fun h => absurd h hrow⟩
  choose e he using hrows
  exact ⟨e, he⟩

/-- A sweep over one component pair, with what it reads at the rows. -/
theorem exists_pair_wrote (hc : s.chain.Closed) (hl : l.Spans s.chain.rows)
    (hr : r.Spans s.chain.rows) (hk : l.type.kind? = some k) (ht : r.type = l.type)
    {a b : Nat → Nat → k.Elem} (ha : s.Holds k l a) (hb : s.Holds k r b) {i : Nat}
    (hi : i < l.type.components) (op : Bool → k.Elem → k.Elem → Bool) {old : Array Bool}
    (hold : old.size = s.chain.rows) :
    ∃ new, (do s.update2 old (← l.lane k i) (← r.lane k i) op) = .ok new ∧
      RowStep.Wrote (fun row acc => .ok (op acc (a row i) (b row i))) s.chain.visited old new := by
  obtain ⟨xs, hxs, -⟩ := hl.1.exists_lane hk hi
  obtain ⟨ys, hys, -⟩ := hr.1.exists_lane (ht ▸ hk) (ht ▸ hi)
  have hstep : ∀ row ∈ s.chain.visited, ∀ acc,
      (do return op acc (← rowOf xs row) (← rowOf ys row) : Outcome Bool) =
        .ok (op acc (a row i) (b row i)) := by
    intro row hrow acc
    have hx := Register.readRow_of_component (ha row hrow i hi)
    have hy := Register.readRow_of_component (hb row hrow i (ht ▸ hi))
    rw [Register.readRow_of_lane hxs] at hx
    rw [Register.readRow_of_lane hys] at hy
    rw [hx, Outcome.ok_bind, hy]
    rfl
  obtain ⟨new, hnew, hwrote⟩ := exists_wrote hc
    (fun row acc => do return op acc (← rowOf xs row) (← rowOf ys row)) hold
    fun row hrow acc => ⟨_, hstep row hrow acc⟩
  refine ⟨new, ?_, hwrote.congr hstep⟩
  rw [hxs, Outcome.ok_bind, hys]
  exact hnew

/-- How one more pair changes what was found so far. -/
def joinPair (k : Kind) (wanted acc : Bool) (x y : k.Elem) : Bool :=
  if wanted then acc && k.equal x y else acc || !k.equal x y

/-- What is found at a row in the end. -/
theorem foldl_joinPair {n : Nat} (hn : 0 < n) (a b : Nat → k.Elem) :
    (List.range' 1 (n - 1)).foldl (fun acc i => joinPair k wanted acc (a i) (b i))
      (k.equal (a 0) (b 0) == wanted) = (Register.allEqual k n a b == wanted) := by
  cases wanted with
  | true =>
    simp only [joinPair, if_pos, beq_true]
    exact foldl_and_range (p := fun i => k.equal (a i) (b i)) hn
  | false =>
    simp only [joinPair, beq_false, Bool.false_eq_true, if_false]
    rw [foldl_or_range (p := fun i => !k.equal (a i) (b i)) hn, Register.allEqual,
      List.not_all_eq_any_not]

/-- Both operators go through, and find at each live row whether all pairs compare equal. -/
theorem exists_aggregate (hc : s.chain.Closed) (hl : l.Spans s.chain.rows)
    (hr : r.Spans s.chain.rows) (hk : l.type.kind? = some k) (ht : r.type = l.type)
    {a b : Nat → Nat → k.Elem} (ha : s.Holds k l a) (hb : s.Holds k r b) (wanted : Bool) :
    ∃ out, s.aggregate k wanted l r (s.blank .bool) = .ok out ∧
      Register.Kept s.chain (s.blank .bool) out ∧ ∀ row ∈ s.chain.visited, out.component? 0 row =
        some (.bool (Register.allEqual k l.type.components (a row) (b row) == wanted)) := by
  have hpos : 0 < l.type.components := Builtin.components_pos hk
  obtain ⟨old, hold, hsize⟩ := (spans_blank (s := s) .bool).1.exists_lane (k := .bool) (i := 0)
    rfl Nat.one_pos
  -- the first pair sets what the row starts from, and the others join it
  obtain ⟨first, hfirst, hstart⟩ := exists_pair_wrote hc hl hr hk ht ha hb hpos
    (fun _ x y => k.equal x y == wanted) hsize
  obtain ⟨new, hnew, hrest⟩ := RowStep.exists_foldlM_wrote
    (l := List.range' 1 (l.type.components - 1))
    (fun acc i => do s.update2 acc (← l.lane k i) (← r.lane k i) (joinPair k wanted))
    (fun i row acc => .ok (joinPair k wanted acc (a row i) (b row i)))
    (fun i hi acc hacc => exists_pair_wrote hc hl hr hk ht ha hb
      (by rw [List.mem_range'_1] at hi; omega) (joinPair k wanted) hacc)
    (hstart.size_eq.trans hsize) fun row (hrow : row ∈ s.chain.visited) =>
      LiveChain.lt_rows_of_mem_visited hrow
  refine ⟨(s.blank .bool).setLane 0 ⟨.bool, new⟩, ?_,
    Register.kept_setLane_of_wrote hold (hstart.comp hrest), fun row hrow => ?_⟩
  · have hone : (s.blank .bool).modifyLane .bool 0 (fun acc => do
        s.map2 (← l.lane k 0) (← r.lane k 0) acc fun x y => k.equal x y == wanted) =
          .ok ((s.blank .bool).setLane 0 ⟨.bool, first⟩) := by
      rw [Register.modifyLane, hold, Outcome.ok_bind]
      exact Outcome.bind_eq_ok.2 ⟨first, hfirst, rfl⟩
    rw [aggregate, hone, Outcome.ok_bind]
    refine (Register.foldlM_modifyLane (Register.lane_setLane_self hold) hnew).trans ?_
    rw [Register.setLane_setLane]
  · obtain ⟨before, after, -, hafter, hget⟩ := (hstart.comp hrest).live row hrow
    have hfold : (.ok ((List.range' 1 (l.type.components - 1)).foldl
        (fun acc i => joinPair k wanted acc (a row i) (b row i))
        (k.equal (a row 0) (b row 0) == wanted)) : Outcome Bool) = .ok after :=
      (List.foldlM_pure ..).symm.trans hafter
    rw [foldl_joinPair hpos, Except.ok.injEq] at hfold
    rw [Register.component?_of_lane (Register.lane_setLane_self hold), hget, ← hfold]
    rfl

theorem aggregate_stray (hc : ¬s.chain.Closed) (hl : l.Spans s.chain.rows)
    (hr : r.Spans s.chain.rows) (hk : l.type.kind? = some k) (ht : r.type = l.type)
    (wanted : Bool) : s.aggregate k wanted l r (s.blank .bool) = .error .outOfRange := by
  have hpos : 0 < l.type.components := Builtin.components_pos hk
  obtain ⟨old, hold, -⟩ := (spans_blank (s := s) .bool).1.exists_lane (k := .bool) (i := 0)
    rfl Nat.one_pos
  obtain ⟨xs, hxs, -⟩ := hl.1.exists_lane hk hpos
  obtain ⟨ys, hys, -⟩ := hr.1.exists_lane (ht ▸ hk) (ht ▸ hpos)
  rw [aggregate, Register.modifyLane, hold, Outcome.ok_bind, hxs, Outcome.ok_bind, hys,
    Outcome.ok_bind, map2, map, apply_stray hc]
  rfl

/-- The operator that looks for equality, or for a difference. -/
def equalityOp (wanted : Bool) : BinaryOp := if wanted then .equal else .notEqual

theorem binary_equalityOp (hk : l.type.kind? = some k) (ht : r.type = l.type) (wanted : Bool) :
    s.binary (equalityOp wanted) l r .bool = s.aggregate k wanted l r (s.blank .bool) := by
  unfold binary
  rw [if_neg (not_not.2 (ht ▸ rfl)), hk]
  cases wanted with
  | true => exact if_pos ht.symm
  | false => exact if_pos ht.symm

end Sweep

/-! ## The builtins -/

namespace Interpreter

open Builtin

variable {it : Interpreter} {batch : Batch} {chain : LiveChain} {l r : Register} {k : Kind}
  {mask : ShaderType}

theorem call_eq_error {name : String} {args : List Register} {t : ShaderType} {b : Builtin}
    {e : Failure} {R : Register}
    (hlookup : it.registry.lookup name (args.map Register.type) = .ok b)
    (hrun : (b.execute ⟨it.sweep chain, some batch.textures⟩ args).run (.zeroed t batch.rows) =
      .error e R) : it.call batch chain name args t = .error e := by
  rw [call, hlookup, Outcome.ok_bind]
  dsimp only
  rw [hrun]

/-- A relation and a quantifier whose calls together give what an operator gives. -/
structure Decides (registry : Registry Implementation) (wanted : Bool)
    (relation quantifier : String) (op : (k : Kind) → k.Elem → k.Elem → Bool)
    (join : Bool → Bool → Bool) : Prop where
  relation : IsRelation relation op
  quantifier : ∀ n ∈ [2, 3, 4], ∀ mask, ShaderType.vector? .bool n = some mask →
    registry.lookup quantifier [mask] =
      .ok ⟨⟨.bool, quantifier, [mask]⟩, reduce (k := .bool) join ⟨.bool, quantifier, [mask]⟩⟩
  fold : ∀ (k : Kind) (n : Nat) (a b : Nat → k.Elem), 0 < n →
    (List.range' 1 (n - 1)).foldl (fun acc i => join acc (op k (a i) (b i))) (op k (a 0) (b 0)) =
      (Register.allEqual k n a b == wanted)

theorem decides_equal (h : standard = .ok it.registry) :
    Decides it.registry true "equal" "all" Kind.equal (· && ·) where
  relation := isRelation_equal
  quantifier n hn mask hmask := lookup_all h hn hmask
  fold k n a b hn := by
    rw [beq_true]
    exact foldl_and_range (p := fun i => k.equal (a i) (b i)) hn

theorem decides_notEqual (h : standard = .ok it.registry) :
    Decides it.registry false "notEqual" "any" (fun k x y => !k.equal x y) (· || ·) where
  relation := isRelation_notEqual
  quantifier n hn mask hmask := lookup_any h hn hmask
  fold k n a b hn := by
    rw [beq_false, Register.allEqual, List.not_all_eq_any_not]
    exact foldl_or_range (p := fun i => !k.equal (a i) (b i)) hn

/-- Two vectors of one type over a chain for the batch, and the type that their relations have. -/
structure VectorPair (it : Interpreter) (batch : Batch) (chain : LiveChain) (l r : Register)
    (k : Kind) (mask : ShaderType) : Prop where
  registry : standard = .ok it.registry
  rows : batch.rows = chain.rows
  left : l.Spans chain.rows
  right : r.Spans chain.rows
  type_eq : r.type = l.type
  vector : l.type.isVector = true
  kind : l.type.kind? = some k
  mask : ShaderType.vector? .bool l.type.components = some mask

section Calls

variable {wanted : Bool} {relation quantifier : String} {op : (k : Kind) → k.Elem → k.Elem → Bool}
  {join : Bool → Bool → Bool}

/-- What the relation leaves is what the quantifier takes. -/
theorem fits_flags {flags : Register}
    (h : Register.Kept chain (.zeroed mask chain.rows) flags) :
    Fits ⟨.bool, quantifier, [mask]⟩ chain.rows [flags] (.zeroed .bool chain.rows) where
  params := congrArg (fun t => [t]) h.type_eq
  result := rfl
  args_wellFormed := by simpa using ((Register.spans_zeroed mask chain.rows).kept h).1
  args_rows := by simpa using ((Register.spans_zeroed mask chain.rows).kept h).2
  out_wellFormed := (Register.spans_zeroed ..).1
  out_rows := rfl

namespace VectorPair

variable (p : VectorPair it batch chain l r k mask)

include p

theorem size : l.type.components ∈ [2, 3, 4] := (vector?_of_isVector p.vector p.kind).1

theorem mask_components : mask.components = l.type.components := (of_vector? p.mask).2

theorem fits : Fits ⟨mask, relation, [l.type, l.type]⟩ chain.rows [l, r]
    (.zeroed mask chain.rows) where
  params := by simp [p.type_eq]
  result := rfl
  args_wellFormed := by simpa using ⟨p.left.1, p.right.1⟩
  args_rows := by simpa using ⟨p.left.2, p.right.2⟩
  out_wellFormed := (Register.spans_zeroed ..).1
  out_rows := rfl

theorem componentwiseFits :
    ComponentwiseFits [k, k] .bool ⟨mask, relation, [l.type, l.type]⟩ :=
  ⟨by simp [p.kind], (of_vector? p.mask).1, by simp [p.mask_components]⟩

theorem reduceFits : ReduceFits .bool ⟨.bool, quantifier, [mask]⟩ :=
  ⟨by simp [(of_vector? p.mask).1], rfl, rfl⟩

theorem lookup (h : Decides it.registry wanted relation quantifier op join) :
    it.registry.lookup relation ([l, r].map Register.type) =
      .ok ⟨⟨mask, relation, [l.type, l.type]⟩,
        Builtin.compare k (op k) ⟨mask, relation, [l.type, l.type]⟩⟩ := by
  rw [List.map_cons, List.map_cons, List.map_nil, p.type_eq]
  exact exists_lookup_relation p.registry h.relation p.vector p.kind p.mask

theorem lookup_flags (h : Decides it.registry wanted relation quantifier op join)
    {flags : Register} (ht : flags.type = mask) :
    it.registry.lookup quantifier ([flags].map Register.type) =
      .ok ⟨⟨.bool, quantifier, [mask]⟩, reduce (k := .bool) join ⟨.bool, quantifier, [mask]⟩⟩ := by
  rw [List.map_cons, List.map_nil, ht]
  exact h.quantifier _ p.size mask p.mask

/-- Over a closed chain the calls of the relation and of the quantifier find at each live row what
the operator finds. -/
theorem exists_call_call (h : Decides it.registry wanted relation quantifier op join)
    (hc : chain.Closed) {a b : Nat → Nat → k.Elem} (ha : (it.sweep chain).Holds k l a)
    (hb : (it.sweep chain).Holds k r b) :
    ∃ out, (do
        let flags ← it.call batch chain relation [l, r] mask
        it.call batch chain quantifier [flags] .bool) = .ok out ∧
      Register.Kept chain (.zeroed .bool chain.rows) out ∧ ∀ row ∈ chain.visited,
        out.component? 0 row =
          some (.bool (Register.allEqual k l.type.components (a row) (b row) == wanted)) := by
  let inv : Invocation := ⟨it.sweep chain, some batch.textures⟩
  have hclosed : inv.chain.Closed := hc
  have hmany : 1 < mask.components := by
    have hsize := p.size
    rw [p.mask_components]
    simp only [List.mem_cons, List.not_mem_nil, or_false] at hsize
    omega
  obtain ⟨flags, hflags, hkept, htruth⟩ :=
    @exists_compare k _ inv l r (.zeroed mask chain.rows) (op k) p.componentwiseFits hclosed
      p.fits hmany p.mask_components.symm (p.type_eq ▸ p.mask_components.symm)
  obtain ⟨out, hout, houtKept, hjoined⟩ :=
    @exists_reduce .bool _ inv flags (.zeroed .bool chain.rows) join p.reduceFits hclosed
      (fits_flags hkept)
  have hinner : it.call batch chain relation [l, r] mask = .ok flags :=
    call_eq_ok.2 ⟨_, p.lookup h, by rw [p.rows]; exact hflags⟩
  have houter : it.call batch chain quantifier [flags] .bool = .ok out :=
    call_eq_ok.2 ⟨_, p.lookup_flags h hkept.type_eq, by rw [p.rows]; exact hout⟩
  refine ⟨out, Outcome.bind_eq_ok.2 ⟨flags, hinner, houter⟩, houtKept, fun row hrow => ?_⟩
  have hsize : flags.type.components = l.type.components := by
    rw [hkept.type_eq]
    exact p.mask_components
  rw [hjoined row hrow _ (htruth row hrow _ _ (ha row hrow) (hb row hrow)), hsize,
    h.fold k _ _ _ (components_pos p.kind)]
  rfl

/-- The calls of the relation and of the quantifier give what the operator gives, be it a register
or a failure. -/
theorem call_call (h : Decides it.registry wanted relation quantifier op join) :
    (do
      let flags ← it.call batch chain relation [l, r] mask
      it.call batch chain quantifier [flags] .bool) =
      (it.sweep chain).binary (Sweep.equalityOp wanted) l r .bool := by
  rw [Sweep.binary_equalityOp p.kind p.type_eq]
  by_cases hc : chain.Closed
  · obtain ⟨a, ha⟩ := Sweep.exists_holds (s := it.sweep chain) p.left p.kind
    obtain ⟨b, hb⟩ := Sweep.exists_holds (s := it.sweep chain) p.right (p.type_eq ▸ p.kind)
    obtain ⟨out, hout, hkept, hlive⟩ := Sweep.exists_aggregate (s := it.sweep chain) hc p.left
      p.right p.kind p.type_eq ha hb wanted
    obtain ⟨out', hout', hkept', hlive'⟩ := p.exists_call_call h hc ha hb
    -- both leave the rows that are not live as they were, at zero
    rw [hout, hout', hkept'.eq_of_component (Register.spans_zeroed ..) hkept
      fun j hj row hrow => ?_]
    obtain rfl : j = 0 := Nat.lt_one_iff.1 hj
    rw [hlive row hrow, hlive' row hrow]
  · have hstray : it.call batch chain relation [l, r] mask = .error .outOfRange := by
      refine call_eq_error (R := .zeroed mask chain.rows) (p.lookup h) ?_
      rw [p.rows]
      exact strays_componentwise _ p.componentwiseFits ⟨it.sweep chain, some batch.textures⟩
        [l, r] _ hc p.fits
    rw [hstray, Sweep.aggregate_stray (s := it.sweep chain) hc p.left p.right p.kind p.type_eq]
    rfl

end VectorPair

end Calls

theorem exists_mask {n : Nat} (hn : n ∈ [2, 3, 4]) :
    ∃ mask, ShaderType.vector? .bool n = some mask := by
  simp only [List.mem_cons, List.not_mem_nil, or_false] at hn
  obtain rfl | rfl | rfl := hn <;> exact ⟨_, rfl⟩

end Interpreter

/-! ## Aggregate equality -/

theorem kind_of_ne_void {t : ShaderType} (h : t ≠ .void) : ∃ k, t.kind? = some k := by
  cases t <;> first | exact ⟨_, rfl⟩ | exact absurd rfl h

/-- `==` and `!=` of two registers of one type go through over a closed chain, whatever the policy
is, and are out of range over any other. The first is true at a live row just when all component
pairs compare equal there, and the second is its negation. For vectors, `all` of `equal` and `any`
of `notEqual`, as the registry finds them, give the same. -/
theorem aggregate_equality (s : Sweep) {l r : Register} (hl : l.Spans s.chain.rows)
    (hr : r.Spans s.chain.rows) (ht : r.type = l.type) (hvoid : l.type ≠ .void) :
    (s.chain.Closed → ∃ eq ne, s.binary .equal l r .bool = .ok eq ∧
      s.binary .notEqual l r .bool = .ok ne ∧ s.LiveOnly .bool .bool eq ∧
      s.LiveOnly .bool .bool ne ∧ ∀ row ∈ s.chain.visited, ∃ b : Bool,
        eq.component? 0 row = some (.bool b) ∧ ne.component? 0 row = some (.bool !b) ∧
        (b = true ↔ l.EqualAt r row)) ∧
    (¬s.chain.Closed → s.binary .equal l r .bool = .error .outOfRange ∧
      s.binary .notEqual l r .bool = .error .outOfRange) ∧
    (l.type.isVector = true → ∃ mask, ShaderType.vector? .bool l.type.components = some mask ∧
      ∀ (it : Interpreter) (batch : Batch), Builtin.standard = .ok it.registry →
        it.sweep s.chain = s → batch.rows = s.chain.rows →
        (do
          let equal ← it.call batch s.chain "equal" [l, r] mask
          it.call batch s.chain "all" [equal] .bool) = s.binary .equal l r .bool ∧
        (do
          let notEqual ← it.call batch s.chain "notEqual" [l, r] mask
          it.call batch s.chain "any" [notEqual] .bool) = s.binary .notEqual l r .bool) := by
  obtain ⟨k, hk⟩ := kind_of_ne_void hvoid
  have hequal : s.binary .equal l r .bool = s.aggregate k true l r (s.blank .bool) :=
    Sweep.binary_equalityOp hk ht true
  have hnotEqual : s.binary .notEqual l r .bool = s.aggregate k false l r (s.blank .bool) :=
    Sweep.binary_equalityOp hk ht false
  refine ⟨fun hc => ?closed, fun hc => ?stray, fun hvector => ?builtins⟩
  case closed =>
    obtain ⟨a, ha⟩ := Sweep.exists_holds hl hk
    obtain ⟨b, hb⟩ := Sweep.exists_holds hr (ht ▸ hk)
    obtain ⟨eq, heq, hkept, hlive⟩ := Sweep.exists_aggregate hc hl hr hk ht ha hb true
    obtain ⟨ne, hne, hkept', hlive'⟩ := Sweep.exists_aggregate hc hl hr hk ht ha hb false
    refine ⟨eq, ne, hequal.trans heq, hnotEqual.trans hne, Sweep.liveOnly_of_kept rfl hkept,
      Sweep.liveOnly_of_kept rfl hkept', fun row hrow =>
        ⟨Register.allEqual k l.type.components (a row) (b row), ?_, ?_, ?_⟩⟩
    · rw [hlive row hrow, beq_true]
    · rw [hlive' row hrow, beq_false]
    · exact (Register.equalAt_iff (ha row hrow) (hb row hrow) ht).symm
  case stray =>
    exact ⟨hequal.trans (Sweep.aggregate_stray hc hl hr hk ht true),
      hnotEqual.trans (Sweep.aggregate_stray hc hl hr hk ht false)⟩
  case builtins =>
    obtain ⟨mask, hmask⟩ := Interpreter.exists_mask (Builtin.vector?_of_isVector hvector hk).1
    refine ⟨mask, hmask, fun it batch hreg hsweep hrows => ?_⟩
    have hcalls {wanted relation quantifier op join}
        (h : Interpreter.Decides it.registry wanted relation quantifier op join) :=
      Interpreter.VectorPair.call_call ⟨hreg, hrows, hl, hr, ht, hvector, hk, hmask⟩ h
    rw [hsweep] at hcalls
    exact ⟨hcalls (Interpreter.decides_equal hreg), hcalls (Interpreter.decides_notEqual hreg)⟩

/-- Row 0 of three is not live. The operands differ at row 1 in the sign of a zero only, and at row
2 hold the same NaN. -/
theorem aggregate_equality_vec2 :
    let s : Sweep := ⟨.build 3 [1, 2], .wide8⟩
    let ones : Lane := ⟨.float, #[.one, .one, .one]⟩
    let l : Register := ⟨.vec2, 3, [⟨.float, #[.zero, ⟨0x80000000⟩, ⟨0x7fc00000⟩]⟩, ones]⟩
    let r : Register := ⟨.vec2, 3, [⟨.float, #[.zero, .zero, ⟨0x7fc00000⟩]⟩, ones]⟩
    ∃ eq ne, s.binary .equal l r .bool = .ok eq ∧ s.binary .notEqual l r .bool = .ok ne ∧
      [0, 1, 2].map (eq.component? 0) =
        [some (.bool false), some (.bool true), some (.bool false)] ∧
      [0, 1, 2].map (ne.component? 0) =
        [some (.bool false), some (.bool false), some (.bool true)] ∧
      ∃ it : Interpreter, Builtin.standard = .ok it.registry ∧
        (do
          let equal ← it.call (.ofChain s.chain) s.chain "equal" [l, r] .bvec2
          it.call (.ofChain s.chain) s.chain "all" [equal] .bool) = .ok eq := by
  intro s ones l r
  have hvisited : s.chain.visited = [1, 2] := by decide +kernel
  have hc : s.chain.Closed :=
    (LiveChain.canonical_build ⟨by decide, by decide, by decide⟩ : s.chain.Canonical).closed
  have hl : l.Spans 3 := ⟨⟨rfl, by simp [l, ones]; rfl, by simp [l, ones, Lane.rows]⟩, rfl⟩
  have hr : r.Spans 3 := ⟨⟨rfl, by simp [r, ones]; rfl, by simp [r, ones, Lane.rows]⟩, rfl⟩
  obtain ⟨hclosed, -, hbuiltins⟩ := aggregate_equality s hl hr rfl (by decide)
  obtain ⟨eq, ne, heq, hne, hliveEq, hliveNe, hlive⟩ := hclosed hc
  have hsame : l.EqualAt r 1 := by
    intro i hi
    change i < 2 at hi
    obtain rfl | rfl : i = 0 ∨ i = 1 := by omega
    · exact ⟨.float, _, _, rfl, rfl, by decide⟩
    · exact ⟨.float, _, _, rfl, rfl, by decide⟩
  have hdiffer : ¬l.EqualAt r 2 := by
    intro h
    obtain ⟨k, a, b, ha, hb, heq⟩ := h 0 (by decide)
    cases ha
    cases hb
    revert heq
    decide
  obtain ⟨b₁, heq₁, hne₁, hb₁⟩ := hlive 1 (by rw [hvisited]; decide)
  obtain ⟨b₂, heq₂, hne₂, hb₂⟩ := hlive 2 (by rw [hvisited]; decide)
  obtain rfl : b₁ = true := hb₁.2 hsame
  obtain rfl : b₂ = false := Bool.eq_false_iff.2 fun h => hdiffer (hb₂.1 h)
  have hdead : 0 ∉ s.chain.visited := by rw [hvisited]; decide
  have heq₀ := hliveEq.zero 0 (by decide) 0 (by decide) hdead
  have hne₀ := hliveNe.zero 0 (by decide) 0 (by decide) hdead
  obtain ⟨mask, hmask, hcalls⟩ := hbuiltins rfl
  obtain rfl : .bvec2 = mask := Option.some.inj hmask
  obtain ⟨registry, hreg, -⟩ := Builtin.exists_standard
  refine ⟨eq, ne, heq, hne, ?_, ?_, ⟨registry, .standard⟩, hreg,
    (hcalls ⟨registry, .standard⟩ (.ofChain s.chain) hreg rfl rfl).1.trans heq⟩
  · rw [List.map_cons, List.map_cons, List.map_cons, heq₀, heq₁, heq₂]
    rfl
  · rw [List.map_cons, List.map_cons, List.map_cons, hne₀, hne₁, hne₂]
    rfl

end BatchShader
