import BatchShader.Proofs.Operation

/-
  Operations read their operands at live rows only.

  `x.restrict c` is the register `x` with zero at every row that the chain does not visit. Each
  operation gives the same outcome on an operand and on the restricted operand (`…_restrict`), so
  operands that agree at live rows (`restrict_eq_restrict_iff`) can stand for each other.
-/

namespace BatchShader

/-! ## Restriction -/

/-- The column with `zero` at every row that the chain does not visit. -/
def restrictColumn {α : Type} (c : LiveChain) (zero : α) (column : Array α) : Array α :=
  column.mapIdx fun r x => if r ∈ c.visited then x else zero

section Columns

variable {α : Type} {c : LiveChain} {zero : α} {r : Nat}

theorem getElem?_restrictColumn_live (column : Array α) (hr : r ∈ c.visited) :
    (restrictColumn c zero column)[r]? = column[r]? := by
  rw [restrictColumn, Array.getElem?_mapIdx]
  simp only [hr, if_true, Option.map_id_fun', id]

theorem rowOf_restrictColumn (column : Array α) (hr : r ∈ c.visited) :
    rowOf (restrictColumn c zero column) r = rowOf column r := by
  rw [rowOf, rowOf, getElem?_restrictColumn_live column hr]

theorem restrictColumn_congr {a b : Array α} (hsize : a.size = b.size)
    (h : ∀ r ∈ c.visited, a[r]? = b[r]?) : restrictColumn c zero a = restrictColumn c zero b := by
  refine Array.ext (by simp [restrictColumn, hsize]) fun r ha hb => ?_
  simp only [restrictColumn, Array.getElem_mapIdx]
  split
  · next hr =>
    have := h r hr
    rwa [Array.getElem?_eq_getElem, Array.getElem?_eq_getElem, Option.some.injEq] at this
  · rfl

end Columns

namespace Lane

def restrict (c : LiveChain) (l : Lane) : Lane := ⟨l.kind, restrictColumn c l.kind.zero l.column⟩

theorem shape_restrict (c : LiveChain) (l : Lane) : (l.restrict c).shape = l.shape := by
  simp [shape, restrict, rows, restrictColumn]

theorem atRow_restrict {c : LiveChain} {r : Nat} (hr : r ∈ c.visited) (l : Lane) :
    (l.restrict c).atRow r = l.atRow r := by
  simp only [atRow, restrict, rowSlice_congr (getElem?_restrictColumn_live l.column hr)]

theorem restrict_congr {c : LiveChain} {l l' : Lane} (hshape : l.shape = l'.shape)
    (h : ∀ r ∈ c.visited, l.atRow r = l'.atRow r) : l.restrict c = l'.restrict c := by
  obtain ⟨k, column⟩ := l
  obtain ⟨k', column'⟩ := l'
  obtain ⟨hk, hsize⟩ := Prod.mk.inj hshape
  dsimp only at hk
  subst hk
  refine congrArg (Lane.mk k) (restrictColumn_congr hsize fun r hr => ?_)
  have hrow : rowSlice column r = rowSlice column' r := by simpa [atRow] using h r hr
  rw [← getElem?_rowSlice_zero, hrow, getElem?_rowSlice_zero]

end Lane

namespace Register

variable {x y : Register} {c : LiveChain}

/-- The register with zero at every row that the chain does not visit. -/
def restrict (x : Register) (c : LiveChain) : Register :=
  { x with lanes := x.lanes.map (Lane.restrict c) }

@[simp] theorem type_restrict (x : Register) (c : LiveChain) : (x.restrict c).type = x.type := rfl

@[simp] theorem rows_restrict (x : Register) (c : LiveChain) : (x.restrict c).rows = x.rows := rfl

@[simp] theorem getElem?_lanes_restrict (x : Register) (c : LiveChain) (i : Nat) :
    (x.restrict c).lanes[i]? = x.lanes[i]?.map (Lane.restrict c) := List.getElem?_map ..

theorem shape_restrict (x : Register) (c : LiveChain) : (x.restrict c).shape = x.shape := by
  simp only [shape, restrict, List.map_map]
  congr 2
  exact List.map_congr_left fun l _ => Lane.shape_restrict c l

theorem atRow_restrict {r : Nat} (hr : r ∈ c.visited) (x : Register) :
    (x.restrict c).atRow r = x.atRow r := by
  simp only [atRow, restrict, List.map_map]
  congr 1
  exact List.map_congr_left fun l _ => Lane.atRow_restrict hr l

theorem map_eq_map_of_getElem? {α β : Type} {f : α → β} {l l' : List α}
    (hlen : l.length = l'.length)
    (h : ∀ (i : Nat) (a b : α), l[i]? = some a → l'[i]? = some b → f a = f b) :
    l.map f = l'.map f := by
  refine List.ext_getElem (by simpa using hlen) fun i hi hi' => ?_
  rw [List.length_map] at hi hi'
  rw [List.getElem_map, List.getElem_map]
  exact h i _ _ (List.getElem?_eq_getElem hi) (List.getElem?_eq_getElem hi')

theorem getElem?_of_map_eq {α β : Type} {f : α → β} {l l' : List α} (h : l.map f = l'.map f)
    {i : Nat} {a b : α} (ha : l[i]? = some a) (hb : l'[i]? = some b) : f a = f b := by
  have := congrArg (·[i]?) h
  simpa [ha, hb] using this

theorem lane_atRow_congr {r i : Nat} {a b : Lane} (h : x.atRow r = y.atRow r)
    (ha : x.lanes[i]? = some a) (hb : y.lanes[i]? = some b) : a.atRow r = b.atRow r := by
  have := congrArg (·.lanes[i]?) h
  simpa [ha, hb] using this

/-- Registers of one shape that agree at the live rows are the same when restricted. -/
theorem restrict_eq_restrict_iff :
    x.restrict c = y.restrict c ↔
      x.shape = y.shape ∧ ∀ r ∈ c.visited, x.atRow r = y.atRow r := by
  constructor
  · intro h
    refine ⟨by rw [← shape_restrict x c, h, shape_restrict], fun r hr => ?_⟩
    rw [← atRow_restrict hr x, h, atRow_restrict hr]
  · rintro ⟨hshape, hrows⟩
    simp only [shape, Prod.mk.injEq] at hshape
    obtain ⟨ht, hr, hl⟩ := hshape
    have hlanes : x.lanes.map (Lane.restrict c) = y.lanes.map (Lane.restrict c) := by
      refine map_eq_map_of_getElem? (by simpa using congrArg List.length hl)
        fun i a b ha hb => Lane.restrict_congr (getElem?_of_map_eq hl ha hb) fun r hr => ?_
      exact lane_atRow_congr (hrows r hr) ha hb
    simp only [restrict, ht, hr, hlanes]

/-- Well-formed registers of one type and length have one shape. -/
theorem WellFormed.shape_eq (hx : x.WellFormed) (hy : y.WellFormed) (ht : x.type = y.type)
    (hr : x.rows = y.rows) : x.shape = y.shape := by
  have hlanes : x.lanes.map Lane.shape = y.lanes.map Lane.shape := by
    refine map_eq_map_of_getElem? (by rw [hx.length_lanes, hy.length_lanes, ht])
      fun i a b ha hb => Prod.ext ?_ ?_
    · have hkind := hx.kind_lane a (List.mem_of_getElem? ha)
      rw [ht, hy.kind_lane b (List.mem_of_getElem? hb), Option.some.injEq] at hkind
      exact hkind.symm
    · exact (hx.rows_lane a (List.mem_of_getElem? ha)).trans
        (hr.trans (hy.rows_lane b (List.mem_of_getElem? hb)).symm)
  simp only [shape, ht, hr, hlanes]

/-- A register is known from its shape and its rows. -/
theorem ext_of_atRow (hx : x.WellFormed) (hshape : y.shape = x.shape)
    (h : ∀ r < x.rows, y.atRow r = x.atRow r) : y = x := by
  have hy := hx.of_shape hshape
  simp only [shape, Prod.mk.injEq] at hshape
  obtain ⟨ht, hr, hl⟩ := hshape
  have hlanes : y.lanes.map id = x.lanes.map id := by
    refine map_eq_map_of_getElem? (by simpa using congrArg List.length hl) fun i a b ha hb => ?_
    have hsizea : a.column.size = x.rows := by
      rw [← hr]
      exact hy.rows_lane a (List.mem_of_getElem? ha)
    have hsizeb : b.column.size = x.rows := hx.rows_lane b (List.mem_of_getElem? hb)
    have hkind := congrArg Prod.fst (getElem?_of_map_eq hl ha hb)
    have hrow : ∀ r < x.rows, a.atRow r = b.atRow r := fun r hr =>
      lane_atRow_congr (h r hr) ha hb
    obtain ⟨k, column⟩ := a
    obtain ⟨k', column'⟩ := b
    dsimp only [Lane.shape] at hkind
    subst hkind
    refine congrArg (Lane.mk k) (Array.ext (hsizea.trans hsizeb.symm) fun r hr hr' => ?_)
    have hslice : rowSlice column r = rowSlice column' r := by
      simpa [Lane.atRow] using hrow r (hsizea ▸ hr)
    refine Option.some.inj ?_
    rw [← Array.getElem?_eq_getElem hr, ← Array.getElem?_eq_getElem hr',
      ← getElem?_rowSlice_zero, hslice, getElem?_rowSlice_zero]
  rw [List.map_id, List.map_id] at hlanes
  cases x
  cases y
  simp_all

@[simp] theorem lane_restrict (x : Register) (c : LiveChain) (k : Kind) (i : Nat) :
    (x.restrict c).lane k i = (x.lane k i).map (restrictColumn c k.zero) := by
  unfold lane
  rw [getElem?_lanes_restrict]
  cases x.lanes[i]? with
  | none => rfl
  | some l =>
    obtain ⟨k', column⟩ := l
    by_cases h : k' = k
    · subst h
      simp [Lane.restrict, Lane.as?, Except.map]
    · simp [Lane.restrict, Lane.as?, h, Outcome.mismatch, Outcome.fail, Except.map]

end Register

/-! ## Sweeps -/

namespace Sweep

variable {s : Sweep} {α β γ : Type}

theorem apply_congr (hc : s.chain.Closed) {step step' : RowStep β}
    (h : ∀ r ∈ s.chain.visited, ∀ x, step r x = step' r x) (out : Array β) :
    s.apply step out = s.apply step' out := by
  rw [apply_eq_atRows hc, apply_eq_atRows hc]
  refine Outcome.foldlM_congr (fun r hr out => ?_) out
  unfold RowStep.atRow
  split
  · rw [h r hr]
  · rfl

section Operands

variable (hc : s.chain.Closed) (zero : α) (zero' : γ)

include hc

theorem map1_restrict (a : Array α) (out : Array β) (op : α → β) :
    s.map1 (restrictColumn s.chain zero a) out op = s.map1 a out op :=
  apply_congr hc (fun r hr _ => by simp only [rowOf_restrictColumn _ hr]) out

theorem map2_restrict (a : Array α) (b : Array γ) (out : Array β) (op : α → γ → β) :
    s.map2 (restrictColumn s.chain zero a) (restrictColumn s.chain zero' b) out op =
      s.map2 a b out op :=
  apply_congr hc (fun r hr _ => by simp only [rowOf_restrictColumn _ hr]) out

theorem update2_restrict (acc : Array β) (a : Array α) (b : Array γ) (op : β → α → γ → β) :
    s.update2 acc (restrictColumn s.chain zero a) (restrictColumn s.chain zero' b) op =
      s.update2 acc a b op :=
  apply_congr hc (fun r hr _ => by simp only [rowOf_restrictColumn _ hr]) acc

end Operands

theorem require_bind_restrict {c : LiveChain} {β : Type} (o : Option Lane) (f : Lane → Outcome β)
    (hf : ∀ l, f (l.restrict c) = f l) :
    (Outcome.require (o.map (Lane.restrict c)) >>= f) = (Outcome.require o >>= f) := by
  cases o with
  | none => rfl
  | some l => exact hf l

/-! ## Operators -/

section Operators

variable (hc : s.chain.Closed)

include hc

theorem unary_restrict (op : UnaryOp) (x : Register) (t : ShaderType) :
    s.unary op (x.restrict s.chain) t = s.unary op x t := by
  simp only [unary, Register.type_restrict, Register.lane_restrict, Outcome.map_bind,
    map1_restrict hc]

theorem zip_restrict {a b c : Kind} (x y out : Register) (op : a.Elem → b.Elem → c.Elem) :
    s.zip (x.restrict s.chain) (y.restrict s.chain) out op = s.zip x y out op := by
  simp only [zip, Builtin.sourceLane, Register.type_restrict, Register.lane_restrict,
    Outcome.map_bind, map2_restrict hc]

theorem aggregate_restrict (k : Kind) (wanted : Bool) (x y out : Register) :
    s.aggregate k wanted (x.restrict s.chain) (y.restrict s.chain) out =
      s.aggregate k wanted x y out := by
  simp only [aggregate, Register.type_restrict, Register.lane_restrict, Outcome.map_bind,
    map2_restrict hc, update2_restrict hc]

theorem accumulateProducts_restrict (x y out : Register) (dst : Nat) (pairs : List (Nat × Nat)) :
    s.accumulateProducts (x.restrict s.chain) (y.restrict s.chain) out dst pairs =
      s.accumulateProducts x y out dst pairs := by
  simp only [accumulateProducts, Register.lane_restrict, Outcome.map_bind, update2_restrict hc]

theorem linearProduct_restrict (x y out : Register) :
    s.linearProduct (x.restrict s.chain) (y.restrict s.chain) out = s.linearProduct x y out := by
  unfold linearProduct
  refine if_congr Iff.rfl (Outcome.foldlM_congr (fun p _ out => ?_) out) rfl
  exact accumulateProducts_restrict hc x y out p.1 p.2

theorem componentwise_restrict (op : BinaryOp) (k : Kind) (x y out : Register) :
    s.componentwise op k (x.restrict s.chain) (y.restrict s.chain) out =
      s.componentwise op k x y out := by
  obtain ⟨_, _, _, _, hf⟩ | ⟨_, hf⟩ | hf := componentwise_form op k
  · rw [hf, hf, zip_restrict hc]
  · rw [hf, hf, aggregate_restrict hc, Register.type_restrict, Register.type_restrict]
  · rw [hf, hf, Register.type_restrict, Register.type_restrict]

theorem binary_restrict (op : BinaryOp) (x y : Register) (t : ShaderType) :
    s.binary op (x.restrict s.chain) (y.restrict s.chain) t = s.binary op x y t := by
  simp only [binary, Register.type_restrict, linearProduct_restrict hc,
    componentwise_restrict hc]

/-! ## Conversions, swizzles, constructors -/

theorem convertInto_restrict (src : Lane) (out : Register) (i : Nat) :
    s.convertInto (src.restrict s.chain) out i = s.convertInto src out i := by
  simp only [convertInto, convertLane, Lane.restrict, map1_restrict hc]

theorem swizzle_restrict (base : Register) (indices : List UInt8) (t : ShaderType) :
    s.swizzle (base.restrict s.chain) indices t = s.swizzle base indices t := by
  unfold swizzle
  refine if_congr Iff.rfl rfl (Outcome.foldlM_congr (fun p _ out => ?_) _)
  dsimp only
  rw [Register.getElem?_lanes_restrict]
  cases base.lanes[p.1.toNat]? with
  | none => rfl
  | some src => exact convertInto_restrict hc src out p.2

theorem constructFromScalar_restrict (t : ShaderType) (arg : Register) :
    s.constructFromScalar t (arg.restrict s.chain) = s.constructFromScalar t arg := by
  unfold constructFromScalar
  rw [Register.getElem?_lanes_restrict]
  refine require_bind_restrict _ _ fun l => ?_
  simp only [convertInto_restrict hc]

theorem constructFromMatrix_restrict (t : ShaderType) (arg : Register) :
    s.constructFromMatrix t (arg.restrict s.chain) = s.constructFromMatrix t arg := by
  refine Outcome.foldlM_congr (fun p _ out => ?_) _
  refine if_congr Iff.rfl ?_ rfl
  rw [Register.getElem?_lanes_restrict]
  exact require_bind_restrict _ _ fun l => convertInto_restrict hc l out _

theorem convertAll_restrict (lanes : List Lane) (n : Nat) (out : Register) :
    ((lanes.map (Lane.restrict s.chain)).zipIdx n).foldlM
        (fun out (src, i) => s.convertInto src out i) out =
      (lanes.zipIdx n).foldlM (fun out (src, i) => s.convertInto src out i) out := by
  rw [List.zipIdx_map, List.foldlM_map]
  exact Outcome.foldlM_congr (fun p _ out => convertInto_restrict hc p.1 out p.2) out

theorem constructFromComponents_restrict (t : ShaderType) (args : List Register) :
    s.constructFromComponents t (args.map (·.restrict s.chain)) =
      s.constructFromComponents t args := by
  have hlanes : (args.map (·.restrict s.chain)).flatMap Register.lanes =
      (args.flatMap Register.lanes).map (Lane.restrict s.chain) := by
    rw [List.flatMap_map, List.map_flatMap]
    rfl
  unfold constructFromComponents
  rw [hlanes, ← List.map_take]
  dsimp only
  rw [List.length_map, convertAll_restrict hc]

theorem construct_restrict (t : ShaderType) (args : List Register) :
    s.construct t (args.map (·.restrict s.chain)) = s.construct t args := by
  match args with
  | [] => exact constructFromComponents_restrict hc t []
  | a :: b :: rest => exact constructFromComponents_restrict hc t (a :: b :: rest)
  | [arg] =>
    refine if_congr Iff.rfl (constructFromScalar_restrict hc t arg) ?_
    refine if_congr Iff.rfl (constructFromMatrix_restrict hc t arg) ?_
    exact constructFromComponents_restrict hc t [arg]

/-! ## Operands that agree at live rows -/

theorem unary_congr {op : UnaryOp} {x x' : Register} {t : ShaderType}
    (h : x'.restrict s.chain = x.restrict s.chain) : s.unary op x' t = s.unary op x t := by
  rw [← unary_restrict hc, h, unary_restrict hc]

theorem binary_congr {op : BinaryOp} {x x' y y' : Register} {t : ShaderType}
    (hx : x'.restrict s.chain = x.restrict s.chain)
    (hy : y'.restrict s.chain = y.restrict s.chain) :
    s.binary op x' y' t = s.binary op x y t := by
  rw [← binary_restrict hc, hx, hy, binary_restrict hc]

theorem swizzle_congr {x x' : Register} {indices : List UInt8} {t : ShaderType}
    (h : x'.restrict s.chain = x.restrict s.chain) :
    s.swizzle x' indices t = s.swizzle x indices t := by
  rw [← swizzle_restrict hc, h, swizzle_restrict hc]

theorem construct_congr {args args' : List Register} {t : ShaderType}
    (h : args'.map (·.restrict s.chain) = args.map (·.restrict s.chain)) :
    s.construct t args' = s.construct t args := by
  rw [← construct_restrict hc, h, construct_restrict hc]

end Operators

end Sweep

end BatchShader
