import BatchShader.Proofs.LaneLoop
import BatchShader.Proofs.Builtin.Names
import BatchShader.Proofs.Builtin.Standard

/-
  Products of matrices and vectors.

  A row of a matrix register holds a matrix, given by its entries; column `c` is in the lanes from
  `c * n` on. `product`, `mulVec` and `vecMul` are the products of linear algebra, in which each
  entry is a sum that starts from zero and rounds at every step. `linear_products`: this is what the
  operator leaves at each live row, whatever the policy is. The loop writes each lane of the result
  once, from a step that reads the operands only (`exists_mul`); which lanes it multiplies is
  settled by `Compatible`, once for each shape and size.

  Both operators and the builtin `dot` add up products from the first to the last. So a column of a
  product is the product with the column, and a component of a vector times a matrix is what `dot`
  gives for the vector and the column, to the last bit.
-/

namespace BatchShader

/-- `n` terms added up from the first to the last. The sum starts from zero and rounds at every
step. -/
def Binary32.sumTo (n : Nat) (term : Nat → Binary32) : Binary32 :=
  (List.range n).foldl (fun acc k => acc + term k) .zero

theorem Binary32.sumTo_succ (n : Nat) (term : Nat → Binary32) :
    sumTo (n + 1) term = sumTo n term + term n := by
  unfold sumTo
  rw [List.range_succ, List.foldl_append]
  rfl

/-! ## Linear algebra -/

namespace Products

/-- The entries of a matrix, by row and column. -/
abbrev Entries := Nat → Nat → Binary32

/-- The product of two matrices. -/
def product (n : Nat) (a b : Entries) : Entries :=
  fun i c => Binary32.sumTo n fun k => a i k * b k c

/-- The product of a matrix and a column vector. -/
def mulVec (n : Nat) (a : Entries) (v : Nat → Binary32) : Nat → Binary32 :=
  fun i => Binary32.sumTo n fun k => a i k * v k

/-- The product of a row vector and a matrix. -/
def vecMul (n : Nat) (v : Nat → Binary32) (a : Entries) : Nat → Binary32 :=
  fun c => Binary32.sumTo n fun k => v k * a k c

end Products

open Products

theorem ShaderType.eq_float {t : ShaderType} (hk : t.kind? = some .float)
    (hone : t.components = 1) : t = .float := by
  cases t <;> first | rfl | exact absurd hone (by decide) | cases hk

namespace Register

/-- Row `r` of a register holds a matrix, column by column. -/
def HoldsMatrix (x : Register) (n r : Nat) (a : Entries) : Prop :=
  ∀ i < n, ∀ c < n, x.component? (c * n + i) r = some (.float (a i c))

/-- Row `r` of a register holds a vector. -/
def HoldsVector (x : Register) (n r : Nat) (v : Nat → Binary32) : Prop :=
  ∀ i < n, x.component? i r = some (.float (v i))

/-- Column `c` of a matrix register, as a register of vectors. For `n = 1`, component `c` of any
register. -/
def column (x : Register) (vector : ShaderType) (n c : Nat) : Register :=
  ⟨vector, x.rows, (x.lanes.drop (c * n)).take n⟩

variable {x : Register} {n r i c rows : Nat}

/-! ## Reading rows -/

theorem component?_column {vector : ShaderType} (x : Register) (hi : i < n) (c r : Nat) :
    (x.column vector n c).component? i r = x.component? (c * n + i) r := by
  rw [component?, component?, column, List.getElem?_take_of_lt hi, List.getElem?_drop]

theorem Spans.column (h : x.Spans rows) {vector : ShaderType} (hvector : vector.components = n)
    (hkind : vector.kind? = x.type.kind?) (hc : (c + 1) * n ≤ x.type.components) :
    (x.column vector n c).Spans rows := by
  have hmem : ∀ l ∈ (x.lanes.drop (c * n)).take n, l ∈ x.lanes := fun l hl =>
    List.mem_of_mem_drop (List.mem_of_mem_take hl)
  refine ⟨⟨?_, fun l hl => hkind.trans (h.1.kind_lane l (hmem l hl)),
    fun l hl => h.1.rows_lane l (hmem l hl)⟩, h.2⟩
  change ((x.lanes.drop (c * n)).take n).length = vector.components
  rw [Nat.succ_mul] at hc
  rw [List.length_take, List.length_drop, h.1.length_lanes, hvector]
  omega

end Register

/-! ## Sums of products -/

/-- Products that are read one after the other and added up. -/
theorem foldlM_products {n : Nat} {f g : Nat → Outcome Binary32} {a b : Nat → Binary32}
    (hf : ∀ k < n, f k = .ok (a k)) (hg : ∀ k < n, g k = .ok (b k)) :
    (List.range n).foldlM (fun acc k => do return Binary32.dotStep acc (← f k) (← g k)) .zero =
      .ok (Binary32.sumTo n fun k => a k * b k) := by
  induction n with
  | zero => rfl
  | succ n ih =>
    rw [List.range_succ, List.foldlM_append, ih (fun k hk => hf k (Nat.lt_succ_of_lt hk))
      fun k hk => hg k (Nat.lt_succ_of_lt hk), Outcome.ok_bind, List.foldlM_cons,
      hf n (Nat.lt_succ_self n), hg n (Nat.lt_succ_self n), Binary32.sumTo_succ]
    rfl

namespace Sweep

variable {s : Sweep} {l r : Register} {t : ShaderType} {n row : Nat}

/-- What `accumulateProducts` does at a row: the products of some lane pairs are added. -/
def termStep (l r : Register) (term : Nat × List (Nat × Nat)) : RowStep Binary32 := fun row acc =>
  term.2.foldlM (fun acc p => do
    return Binary32.dotStep acc (← l.readRow .float p.1 row) (← r.readRow .float p.2 row)) acc

theorem termStep_eq_ok {dst : Nat} {p q : Nat → Nat} {a b : Nat → Binary32}
    (ha : ∀ k < n, l.component? (p k) row = some (.float (a k)))
    (hb : ∀ k < n, r.component? (q k) row = some (.float (b k))) :
    termStep l r (dst, (List.range n).map fun k => (p k, q k)) row .zero =
      .ok (Binary32.sumTo n fun k => a k * b k) := by
  rw [termStep, List.foldlM_map]
  exact foldlM_products (fun k hk => Register.readRow_of_component (ha k hk))
    fun k hk => Register.readRow_of_component (hb k hk)

/-- Which lanes are multiplied fits the operands and the result, and no lane of the result is
computed twice. -/
structure Compatible (n : Nat) (left right result : ShaderType) : Prop where
  left_kind : left.kind? = some .float
  right_kind : right.kind? = some .float
  result_kind : result.kind? = some .float
  linear : isLinear .mul left right = true
  dimension_eq : n = if left.isMatrix then left.dimension else right.dimension
  fits : (hasDimension n left && hasDimension n right) = true
  distinct : ((productTerms n left.isMatrix right.isMatrix).map Prod.fst).Nodup
  targets : ∀ term ∈ productTerms n left.isMatrix right.isMatrix, term.1 < result.components
  sources : ∀ term ∈ productTerms n left.isMatrix right.isMatrix, ∀ p ∈ term.2,
    p.1 < left.components ∧ p.2 < right.components
  nonempty : productTerms n left.isMatrix right.isMatrix ≠ []
  pairs_nonempty : ∀ term ∈ productTerms n left.isMatrix right.isMatrix, term.2 ≠ []

theorem exists_accumulateProducts (hc : s.chain.Closed) (hl : l.Spans s.chain.rows)
    (hr : r.Spans s.chain.rows) (hkl : l.type.kind? = some .float)
    (hkr : r.type.kind? = some .float) {term : Nat × List (Nat × Nat)}
    (hsources : ∀ p ∈ term.2, p.1 < l.type.components ∧ p.2 < r.type.components)
    {out : Register} {old : Array Binary32} (hold : out.lane .float term.1 = .ok old)
    (hsize : old.size = s.chain.rows) :
    ∃ new : Array Binary32,
      s.accumulateProducts l r out term.1 term.2 = .ok (out.setLane term.1 ⟨.float, new⟩) ∧
        (termStep l r term).Wrote s.chain.visited old new := by
  obtain ⟨new, hnew, hwrote⟩ := RowStep.exists_foldlM_wrote (l := term.2)
    (fun acc p => do s.update2 acc (← l.lane .float p.1) (← r.lane .float p.2) Binary32.dotStep)
    (fun p row acc => do
      return Binary32.dotStep acc (← l.readRow .float p.1 row) (← r.readRow .float p.2 row))
    (fun p hp acc hacc => by
      obtain ⟨hpl, hpr⟩ := hsources p hp
      obtain ⟨xs, hxs, -⟩ := hl.1.exists_lane hkl hpl
      obtain ⟨ys, hys, -⟩ := hr.1.exists_lane hkr hpr
      rw [hxs, Outcome.ok_bind, hys, Outcome.ok_bind]
      simp only [Register.readRow_of_lane hxs, Register.readRow_of_lane hys]
      refine exists_wrote hc _ hacc fun row hrow acc => ?_
      obtain ⟨a, ha⟩ := LiveChain.exists_getElem?_of_mem_visited
        ((hl.lane .float p.1).holds xs hxs) hrow
      obtain ⟨b, hb⟩ := LiveChain.exists_getElem?_of_mem_visited
        ((hr.lane .float p.2).holds ys hys) hrow
      exact ⟨_, by rw [rowOf_eq_ok.2 ha, rowOf_eq_ok.2 hb]; rfl⟩)
    hsize fun row (hrow : row ∈ s.chain.visited) => LiveChain.lt_rows_of_mem_visited hrow
  refine ⟨new, ?_, hwrote⟩
  rw [accumulateProducts, hold, Outcome.ok_bind]
  exact Outcome.bind_eq_ok.2 ⟨new, hnew, rfl⟩

/-- What `*` gives. -/
structure ProductOf (s : Sweep) (l r : Register) (t : ShaderType) (out : Register) : Prop
    extends LiveOnly s t .float out where
  eq_ok : s.binary .mul l r t = .ok out

/-- A product of operands that fit goes through, and computes each lane as its term says. -/
theorem exists_mul (hc : s.chain.Closed) (hl : l.Spans s.chain.rows) (hr : r.Spans s.chain.rows)
    (h : Compatible n l.type r.type t) :
    ∃ out, ProductOf s l r t out ∧ Register.LanesWritten s.chain .float Prod.fst (termStep l r)
      (productTerms n l.type.isMatrix r.type.isMatrix) (s.blank t) out := by
  obtain ⟨out, hout, hwritten⟩ := Register.exists_lanesWritten (c := s.chain)
    (l := productTerms n l.type.isMatrix r.type.isMatrix)
    (f := fun out term => s.accumulateProducts l r out term.1 term.2) Prod.fst (termStep l r)
    (spans_blank t) h.result_kind h.distinct h.targets fun term hterm out old hold hsize =>
      exists_accumulateProducts hc hl hr h.left_kind h.right_kind (h.sources term hterm) hold hsize
  refine ⟨out, ⟨liveOnly_of_kept h.result_kind hwritten.kept, binary_eq_ok.2
    ⟨h.left_kind.trans h.right_kind.symm, .inl ⟨h.linear, ?_⟩⟩⟩, hwritten⟩
  exact linearProduct_eq_ok.2 ⟨n, h.dimension_eq, h.fits, hout⟩

/-- A lane of a product, from the lanes that its term multiplies. -/
theorem mul_component {out : Register} (h : Compatible n l.type r.type t)
    (hout : Register.LanesWritten s.chain .float Prod.fst (termStep l r)
      (productTerms n l.type.isMatrix r.type.isMatrix) (s.blank t) out)
    (hrow : row ∈ s.chain.visited) {dst : Nat} {p q : Nat → Nat}
    (hterm : (dst, (List.range n).map fun k => (p k, q k)) ∈
      productTerms n l.type.isMatrix r.type.isMatrix) {a b : Nat → Binary32}
    (ha : ∀ k < n, l.component? (p k) row = some (.float (a k)))
    (hb : ∀ k < n, r.component? (q k) row = some (.float (b k))) :
    out.component? dst row = some (.float (Binary32.sumTo n fun k => a k * b k)) :=
  hout.component h.result_kind rfl hterm (h.targets _ hterm) hrow (termStep_eq_ok ha hb)

/-- Over a chain that leads out of the batch a product of operands that fit is out of range. -/
theorem mul_stray (hc : ¬s.chain.Closed) (hl : l.Spans s.chain.rows) (hr : r.Spans s.chain.rows)
    (h : Compatible n l.type r.type t) : s.binary .mul l r t = .error .outOfRange := by
  obtain ⟨term, terms, hterms⟩ := List.exists_cons_of_ne_nil h.nonempty
  have hterm : term ∈ productTerms n l.type.isMatrix r.type.isMatrix := by
    rw [hterms]
    exact List.mem_cons_self
  obtain ⟨⟨i, j⟩, pairs, hpairs⟩ := List.exists_cons_of_ne_nil (h.pairs_nonempty term hterm)
  obtain ⟨hi, hj⟩ := h.sources term hterm (i, j) (by rw [hpairs]; exact List.mem_cons_self)
  obtain ⟨xs, hxs, -⟩ := hl.1.exists_lane h.left_kind hi
  obtain ⟨ys, hys, -⟩ := hr.1.exists_lane h.right_kind hj
  obtain ⟨old, hold, -⟩ := (spans_blank (s := s) t).1.exists_lane h.result_kind
    (h.targets term hterm)
  -- the first step of the first sum is a sweep
  have hfirst : s.accumulateProducts l r (s.blank t) term.1 term.2 = .error .outOfRange := by
    rw [accumulateProducts, hold, Outcome.ok_bind, hpairs, List.foldlM_cons]
    dsimp only
    rw [hxs, Outcome.ok_bind, hys, Outcome.ok_bind, update2, apply_stray hc]
    rfl
  have hlinear : s.linearProduct l r (s.blank t) = .error .outOfRange := by
    unfold linearProduct
    dsimp only
    rw [← h.dimension_eq, if_pos h.fits, hterms, List.foldlM_cons]
    exact congrArg (· >>= _) hfirst
  rw [binary, if_neg (not_not.2 (h.left_kind.trans h.right_kind.symm)), if_pos h.linear, hlinear]

/-! ## Operands of different dimensions -/

/-- How many rows a matrix has, or how many components a vector. -/
def extent (t : ShaderType) : Nat := if t.isMatrix then t.dimension else t.components

theorem hasDimension_eq_true_iff : hasDimension n t = true ↔ extent t = n := by
  unfold hasDimension extent
  split <;> exact beq_iff_eq

/-- Matrices and vectors of floats are multiplied as a whole if one of them is a matrix. -/
theorem isLinear_mul : ∀ {left right : ShaderType}, left.isMatrix ∨ left.isVector →
    right.isMatrix ∨ right.isVector → left.isMatrix ∨ right.isMatrix →
    isLinear .mul left right = true := by
  intro left right hl hr hm
  have hscalar : ∀ t : ShaderType, t.isMatrix ∨ t.isVector → t.isScalar = false := by
    intro t ht
    cases t <;> first | rfl | (rcases ht with h | h <;> cases h)
  simp [isLinear, hscalar left hl, hscalar right hr, hm]

theorem mul_of_extent_ne (hl : l.type.isMatrix ∨ l.type.isVector)
    (hr : r.type.isMatrix ∨ r.type.isVector) (hm : l.type.isMatrix ∨ r.type.isMatrix)
    (hkl : l.type.kind? = some .float) (hkr : r.type.kind? = some .float)
    (hne : extent l.type ≠ extent r.type) (t : ShaderType) :
    s.binary .mul l r t = Outcome.mismatch (.dimensions
      (if l.type.isMatrix then l.type.dimension else r.type.dimension) l.type r.type) := by
  rw [binary, if_neg (not_not.2 (hkl.trans hkr.symm)), if_pos (isLinear_mul hl hr hm)]
  refine if_neg fun hfits => hne ?_
  rw [Bool.and_eq_true, hasDimension_eq_true_iff, hasDimension_eq_true_iff] at hfits
  exact hfits.1.trans hfits.2.symm

/-! ## Dimensions -/

/-- The types of matrices and vectors of a dimension, and their products. -/
structure Dimension (n : Nat) (matrix vector : ShaderType) : Prop where
  pos : 0 < n
  matrix_components : matrix.components = n * n
  vector_components : vector.components = n
  isMatrix : matrix.isMatrix = true
  not_isMatrix : vector.isMatrix = false
  matrices : Compatible n matrix matrix matrix
  matrixVector : Compatible n matrix vector vector
  vectorMatrix : Compatible n vector matrix vector

theorem dimension_of_types {n : Nat} {matrix vector : ShaderType}
    (hm : ShaderType.matrix? n = some matrix) (hv : ShaderType.vector? .float n = some vector) :
    Dimension n matrix vector := by
  match n, hm with
  | 2, hm | 3, hm | 4, hm =>
    cases hm
    cases hv
    constructor <;> first | decide | (constructor <;> decide)

theorem mem_productTerms_matrices {n i c : Nat} (hi : i < n) (hc : c < n) :
    (c * n + i, (List.range n).map fun k => (k * n + i, c * n + k)) ∈ productTerms n true true :=
  List.mem_flatMap.2 ⟨c, List.mem_range.2 hc, List.mem_map.2 ⟨i, List.mem_range.2 hi, rfl⟩⟩

theorem mem_productTerms_matrixVector {n i : Nat} (hi : i < n) :
    (i, (List.range n).map fun k => (k * n + i, k)) ∈ productTerms n true false :=
  List.mem_map.2 ⟨i, List.mem_range.2 hi, rfl⟩

theorem mem_productTerms_vectorMatrix {n c : Nat} (hc : c < n) (right : Bool) :
    (c, (List.range n).map fun k => (k, c * n + k)) ∈ productTerms n false right :=
  List.mem_map.2 ⟨c, List.mem_range.2 hc, rfl⟩

/-! ## Products -/

section Forms

variable {matrix vector : ShaderType} (hc : s.chain.Closed) (hl : l.Spans s.chain.rows)
  (hr : r.Spans s.chain.rows)

include hc hl hr

theorem exists_matrices (d : Dimension n matrix vector) (hlt : l.type = matrix)
    (hrt : r.type = matrix) :
    ∃ out, ProductOf s l r matrix out ∧ ∀ row ∈ s.chain.visited, ∀ a b, l.HoldsMatrix n row a →
      r.HoldsMatrix n row b → out.HoldsMatrix n row (product n a b) := by
  have hfit : Compatible n l.type r.type matrix := by
    rw [hlt, hrt]
    exact d.matrices
  obtain ⟨out, hout, hwritten⟩ := exists_mul hc hl hr hfit
  refine ⟨out, hout, fun row hrow a b ha hb i hi c hcn => ?_⟩
  refine mul_component hfit hwritten hrow ?_ (fun k hk => ha i hi k hk) fun k hk => hb k hk c hcn
  rw [hlt, hrt, d.isMatrix]
  exact mem_productTerms_matrices hi hcn

theorem exists_matrixVector (d : Dimension n matrix vector) (hlt : l.type = matrix)
    (hrt : r.type = vector) :
    ∃ out, ProductOf s l r vector out ∧ ∀ row ∈ s.chain.visited, ∀ a v, l.HoldsMatrix n row a →
      r.HoldsVector n row v → out.HoldsVector n row (mulVec n a v) := by
  have hfit : Compatible n l.type r.type vector := by
    rw [hlt, hrt]
    exact d.matrixVector
  obtain ⟨out, hout, hwritten⟩ := exists_mul hc hl hr hfit
  refine ⟨out, hout, fun row hrow a v ha hv i hi => ?_⟩
  refine mul_component hfit hwritten hrow ?_ (fun k hk => ha i hi k hk) hv
  rw [hlt, hrt, d.isMatrix, d.not_isMatrix]
  exact mem_productTerms_matrixVector hi

theorem exists_vectorMatrix (d : Dimension n matrix vector) (hlt : l.type = vector)
    (hrt : r.type = matrix) :
    ∃ out, ProductOf s l r vector out ∧ ∀ row ∈ s.chain.visited, ∀ v a, l.HoldsVector n row v →
      r.HoldsMatrix n row a → out.HoldsVector n row (vecMul n v a) := by
  have hfit : Compatible n l.type r.type vector := by
    rw [hlt, hrt]
    exact d.vectorMatrix
  obtain ⟨out, hout, hwritten⟩ := exists_mul hc hl hr hfit
  refine ⟨out, hout, fun row hrow v a hv ha c hcn => ?_⟩
  refine mul_component hfit hwritten hrow ?_ hv fun k hk => ha k hk c hcn
  rw [hlt, d.not_isMatrix]
  exact mem_productTerms_vectorMatrix hcn _

end Forms

end Sweep

/-! ## Columns of products -/

theorem Register.HoldsMatrix.column {x : Register} {n r c : Nat} {vector : ShaderType}
    {a : Entries} (h : x.HoldsMatrix n r a) (hc : c < n) :
    (x.column vector n c).HoldsVector n r fun i => a i c := fun i hi => by
  rw [component?_column x hi]
  exact h i hi c hc

namespace Sweep

variable {s : Sweep} {l r out x : Register} {n c row rows : Nat} {matrix vector : ShaderType}

namespace Dimension

variable (d : Dimension n matrix vector)

include d

theorem exists_holdsMatrix (hx : x.Spans rows) (hxt : x.type = matrix) (hrow : row < rows) :
    ∃ a, x.HoldsMatrix n row a := by
  obtain ⟨e, he⟩ := hx.exists_holdsRow (by rw [hxt, d.matrices.left_kind]) hrow
  refine ⟨fun i c => e (c * n + i), fun i hi c hcn => he _ ?_⟩
  rw [hxt, d.matrix_components]
  exact Register.index_lt hi hcn

theorem exists_holdsVector (hx : x.Spans rows) (hxt : x.type = vector) (hrow : row < rows) :
    ∃ v, x.HoldsVector n row v := by
  obtain ⟨e, he⟩ := hx.exists_holdsRow (by rw [hxt, d.vectorMatrix.left_kind]) hrow
  exact ⟨e, fun i hi => he i (by rwa [hxt, d.vector_components])⟩

theorem spans_column (hx : x.Spans rows) (hxt : x.type = matrix) (hcn : c < n) :
    (x.column vector n c).Spans rows := by
  refine hx.column d.vector_components ?_ ?_
  · rw [hxt, d.matrices.left_kind, d.vectorMatrix.left_kind]
  · rw [hxt, d.matrix_components]
    exact Nat.mul_le_mul_right n hcn

end Dimension

/-- A column of a product is the product with the column. -/
theorem mul_column (hc : s.chain.Closed) (d : Dimension n matrix vector)
    (hl : l.Spans s.chain.rows) (hr : r.Spans s.chain.rows) (hlt : l.type = matrix)
    (hrt : r.type = matrix) (h : s.binary .mul l r matrix = .ok out) (hcn : c < n) :
    s.binary .mul l (r.column vector n c) vector = .ok (out.column vector n c) := by
  obtain ⟨out', hout, hlive⟩ := exists_matrices hc hl hr d hlt hrt
  obtain rfl : out' = out := Except.ok.inj (hout.eq_ok.symm.trans h)
  obtain ⟨w, hw, hwlive⟩ := exists_matrixVector hc hl (d.spans_column hr hrt hcn) d hlt rfl
  have hspans : (out'.column vector n c).Spans s.chain.rows :=
    d.spans_column hout.spans hout.type_eq hcn
  rw [hw.eq_ok]
  refine congrArg _ (Register.ext_of_component hspans hw.spans hw.type_eq fun i hi row hrow => ?_)
  have hin : i < n := d.vector_components ▸ hi
  rw [Register.component?_column _ hin]
  by_cases hrow' : row ∈ s.chain.visited
  · obtain ⟨a, ha⟩ := d.exists_holdsMatrix hl hlt hrow
    obtain ⟨b, hb⟩ := d.exists_holdsMatrix hr hrt hrow
    rw [hlive row hrow' a b ha hb i hin c hcn,
      hwlive row hrow' a (fun k => b k c) ha (hb.column hcn) i hin]
    rfl
  · rw [hout.zero _ (d.matrix_components ▸ Register.index_lt hin hcn) row hrow hrow',
      hw.zero i hi row hrow hrow']

end Sweep

/-! ## The builtin dot product -/

namespace Builtin

/-- The overloads under the name `dot` take two arguments of one float type. -/
theorem dot_of_mem {registry : Registry Implementation} (h : standard = .ok registry)
    {b : Builtin} (hb : b ∈ registry.overloads) (hname : b.signature.name = "dot") :
    b.body = dot b.signature ∧ PairSumFits b.signature := by
  obtain ⟨line, hline, d, hd, hs, hbody⟩ := exists_line_of_mem h hb
  rw [hname] at hline
  obtain rfl : line = ("float dot(genType, genType)", dot) := List.mem_singleton.1 hline
  have hfits : LineFits "float dot(genType, genType)" PairSumFits = true := by decide +kernel
  exact ⟨hbody, fits_of_lineFits hfits hd hs⟩

/-- A call of `dot` leaves the sum of the products at each live row. -/
theorem exists_dot {s : Signature} (hs : PairSumFits s) {inv : Invocation}
    (hc : inv.chain.Closed) {x y out : Register} (hfits : Fits s inv.chain.rows [x, y] out) :
    ∃ new, (execute ⟨s, dot s⟩ inv [x, y]).run out = .ok () new ∧
      Register.Kept inv.chain out new ∧ ∀ r ∈ inv.chain.visited, ∀ v w,
        x.HoldsVector x.type.components r v → y.HoldsVector x.type.components r w →
        new.component? 0 r =
          some (.float (Binary32.sumTo x.type.components fun k => v k * w k)) := by
  have hpair : operandPair s [x, y] = .ok (x, y) := by
    simp [operandPair, ← hfits.params]
  have htypes : x.type = y.type ∧ x.type.kind? = some .float := by
    obtain ⟨hparams, hkind, -⟩ := hs
    generalize s.params.headD .void = t at hparams hkind
    rcases hparams with hparams | hparams <;> have hargs := hfits.params.trans hparams
    · cases hargs
    · obtain ⟨hx, hy⟩ : x.type = t ∧ y.type = t := by simpa using hargs
      exact ⟨hx.trans hy.symm, hx ▸ hkind⟩
  obtain ⟨old, new, hold, hrun, hwrote⟩ := exists_pairSum_run Binary32.dotStep id hs hc hfits hpair
    (by simp) (by simp) htypes.1 htypes.2
  refine ⟨out.setLane 0 ⟨.float, new⟩, hrun, Register.kept_setLane_of_wrote hold hwrote,
    fun r hr v w hv hw => ?_⟩
  obtain ⟨before, after, -, hafter, hget⟩ := hwrote.live r hr
  have hsum := foldlM_products (f := fun k => x.readRow .float k r)
    (g := fun k => y.readRow .float k r)
    (fun k hk => Register.readRow_of_component (hv k hk))
    fun k hk => Register.readRow_of_component (hw k hk)
  simp only [sumStep, id, ite_self] at hafter
  rw [Register.component?_of_lane (Register.lane_setLane_self hold), hget]
  rw [hsum, Except.ok.injEq] at hafter
  rw [hafter]
  rfl

theorem exists_lookup_dot {n : Nat} {t : ShaderType}
    (ht : ShaderType.vector? .float n = some t) :
    ∃ registry, standard = .ok registry ∧ ∃ b, registry.lookup "dot" [t, t] = .ok b ∧
      b.body = dot b.signature ∧ PairSumFits b.signature ∧ b.signature.params = [t, t] := by
  obtain ⟨registry, hreg, -⟩ := exists_standard
  have hline : ("float dot(genType, genType)", dot) ∈ catalogue := by
    simp [catalogue, geometry]
  have hexpand : (⟨.float, "dot", [t, t]⟩ : Signature) ∈
      (⟨.concrete .float, "dot", [.placeholder .genType, .placeholder .genType]⟩ :
        Declaration).expand := by
    match n, ht with
    | 1, ht | 2, ht | 3, ht | 4, ht =>
      cases ht
      decide +kernel
  obtain ⟨b, hlookup, hname, hparams⟩ :=
    Registry.exists_lookup_of_build hreg hline (by decide +kernel) hexpand
  obtain ⟨hbody, hfits⟩ := dot_of_mem hreg (Registry.mem_of_lookup hlookup) hname
  exact ⟨registry, hreg, b, hlookup, hbody, hfits, hparams⟩

end Builtin

open Builtin in
/-- A component of a vector times a matrix is what `dot` gives for the vector and a column. -/
theorem Sweep.mul_component_eq_dot {s : Sweep} {l r out : Register} {n c : Nat}
    {matrix vector : ShaderType} (hc : s.chain.Closed) (d : Dimension n matrix vector)
    (hv : ShaderType.vector? .float n = some vector) (hl : l.Spans s.chain.rows)
    (hr : r.Spans s.chain.rows) (hlt : l.type = vector) (hrt : r.type = matrix)
    (h : s.binary .mul l r vector = .ok out) (hcn : c < n) (textures : Option TextureUnits) :
    ∃ registry, standard = .ok registry ∧ ∃ b : Builtin,
      registry.lookup "dot" [vector, vector] = .ok b ∧
      (b.execute ⟨s, textures⟩ [l, r.column vector n c]).run (s.blank .float) =
        .ok () (out.column .float 1 c) := by
  obtain ⟨registry, hreg, b, hlookup, hbody, hfits, hparams⟩ := exists_lookup_dot hv
  refine ⟨registry, hreg, b, hlookup, ?_⟩
  obtain ⟨sig, body⟩ := b
  obtain rfl : body = dot sig := hbody
  have hresult : sig.result = .float := by
    obtain ⟨-, -, hkind, hone⟩ := hfits
    exact ShaderType.eq_float hkind hone
  have hrc : (r.column vector n c).Spans s.chain.rows := d.spans_column hr hrt hcn
  obtain ⟨out', hout, hlive⟩ := exists_vectorMatrix hc hl hr d hlt hrt
  obtain rfl : out' = out := Except.ok.inj (hout.eq_ok.symm.trans h)
  have hspans : (out'.column .float 1 c).Spans s.chain.rows := by
    refine hout.spans.column rfl ?_ ?_
    · rw [hout.type_eq, d.vectorMatrix.left_kind]
      rfl
    · rw [hout.type_eq, d.vector_components]
      omega
  have hcall : Fits sig s.chain.rows [l, r.column vector n c] (s.blank .float) :=
    ⟨by rw [hparams, ← hlt]; rfl, hresult.symm, by simp [hl.1, hrc.1], by simp [hl.2, hrc.2],
      (spans_blank .float).1, rfl⟩
  obtain ⟨new, hrun, hkept, hsum⟩ := @exists_dot sig hfits ⟨s, textures⟩ hc _ _ _ hcall
  rw [hrun]
  refine congrArg _ (Register.ext_of_component hspans ((spans_blank .float).kept hkept)
    hkept.type_eq fun j hj row hrow => ?_)
  obtain rfl : j = 0 := Nat.lt_one_iff.1 hj
  rw [Register.component?_column _ Nat.one_pos, Nat.mul_one, Nat.add_zero]
  by_cases hrow' : row ∈ s.chain.visited
  · obtain ⟨v, hv⟩ := d.exists_holdsVector hl hlt hrow
    obtain ⟨a, ha⟩ := d.exists_holdsMatrix hr hrt hrow
    rw [hlive row hrow' v a hv ha c hcn]
    rw [hlt, d.vector_components] at hsum
    exact hsum row hrow' v (fun k => a k c) hv (ha.column hcn)
  · rw [hout.zero c (d.vector_components ▸ hcn) row hrow hrow', hkept.component?_eq hrow']
    exact Register.component?_zeroed rfl Nat.one_pos hrow

/-! ## Linear products -/

namespace Sweep

open Builtin

/-- What `*` computes on matrices and vectors of a dimension. -/
structure Multiplies (s : Sweep) (n : Nat) (matrix vector : ShaderType) : Prop where
  matrices : ∀ l r : Register, l.type = matrix → r.type = matrix → l.Spans s.chain.rows →
    r.Spans s.chain.rows → ∃ out, ProductOf s l r matrix out ∧
      ∀ row ∈ s.chain.visited, ∃ a b, l.HoldsMatrix n row a ∧ r.HoldsMatrix n row b ∧
        out.HoldsMatrix n row (product n a b)
  matrixVector : ∀ l r : Register, l.type = matrix → r.type = vector → l.Spans s.chain.rows →
    r.Spans s.chain.rows → ∃ out, ProductOf s l r vector out ∧
      ∀ row ∈ s.chain.visited, ∃ a v, l.HoldsMatrix n row a ∧ r.HoldsVector n row v ∧
        out.HoldsVector n row (mulVec n a v)
  vectorMatrix : ∀ l r : Register, l.type = vector → r.type = matrix → l.Spans s.chain.rows →
    r.Spans s.chain.rows → ∃ out, ProductOf s l r vector out ∧
      ∀ row ∈ s.chain.visited, ∃ v a, l.HoldsVector n row v ∧ r.HoldsMatrix n row a ∧
        out.HoldsVector n row (vecMul n v a)
  /-- A column of a product is the product with the column. -/
  column : ∀ l r out : Register, l.type = matrix → r.type = matrix → l.Spans s.chain.rows →
    r.Spans s.chain.rows → s.binary .mul l r matrix = .ok out → ∀ c < n,
      s.binary .mul l (r.column vector n c) vector = .ok (out.column vector n c)
  /-- A component of a vector times a matrix is the dot product with the column. -/
  dot : ∀ l r out : Register, l.type = vector → r.type = matrix → l.Spans s.chain.rows →
    r.Spans s.chain.rows → s.binary .mul l r vector = .ok out → ∀ c < n, ∀ textures,
      ∃ registry, standard = .ok registry ∧ ∃ b : Builtin,
        registry.lookup "dot" [vector, vector] = .ok b ∧
        (b.execute ⟨s, textures⟩ [l, r.column vector n c]).run (s.blank .float) =
          .ok () (out.column .float 1 c)

/-- Products of matrices and vectors of one dimension go through and are those of linear algebra at
each live row, added up from zero in the order of the components, whatever the policy is. Over a
chain that leads out of the batch they are out of range. Matrices and vectors of different
dimensions are a mismatch. -/
theorem linear_products (s : Sweep) :
    (∀ (n : Nat) (matrix vector : ShaderType), ShaderType.matrix? n = some matrix →
      ShaderType.vector? .float n = some vector →
      (s.chain.Closed → s.Multiplies n matrix vector) ∧
      (¬s.chain.Closed → ∀ (l r : Register) (t : ShaderType), l.Spans s.chain.rows →
        r.Spans s.chain.rows → (l.type, r.type, t) ∈
          [(matrix, matrix, matrix), (matrix, vector, vector), (vector, matrix, vector)] →
        s.binary .mul l r t = .error .outOfRange)) ∧
    ∀ (l r : Register) (t : ShaderType), l.type.isMatrix ∨ l.type.isVector →
      r.type.isMatrix ∨ r.type.isVector → l.type.isMatrix ∨ r.type.isMatrix →
      l.type.kind? = some .float → r.type.kind? = some .float →
      extent l.type ≠ extent r.type →
      s.binary .mul l r t = Outcome.mismatch (.dimensions
        (if l.type.isMatrix then l.type.dimension else r.type.dimension) l.type r.type) := by
  refine ⟨fun n matrix vector hm hv => ?_, fun l r t hl hr hm hkl hkr hne =>
    mul_of_extent_ne hl hr hm hkl hkr hne t⟩
  have d := dimension_of_types hm hv
  constructor
  · intro hc
    constructor
    case matrices =>
      intro l r hlt hrt hl hr
      obtain ⟨out, hout, hlive⟩ := exists_matrices hc hl hr d hlt hrt
      refine ⟨out, hout, fun row hrow => ?_⟩
      have hin : row < s.chain.rows := LiveChain.lt_rows_of_mem_visited hrow
      obtain ⟨a, ha⟩ := d.exists_holdsMatrix hl hlt hin
      obtain ⟨b, hb⟩ := d.exists_holdsMatrix hr hrt hin
      exact ⟨a, b, ha, hb, hlive row hrow a b ha hb⟩
    case matrixVector =>
      intro l r hlt hrt hl hr
      obtain ⟨out, hout, hlive⟩ := exists_matrixVector hc hl hr d hlt hrt
      refine ⟨out, hout, fun row hrow => ?_⟩
      have hin : row < s.chain.rows := LiveChain.lt_rows_of_mem_visited hrow
      obtain ⟨a, ha⟩ := d.exists_holdsMatrix hl hlt hin
      obtain ⟨v, hv⟩ := d.exists_holdsVector hr hrt hin
      exact ⟨a, v, ha, hv, hlive row hrow a v ha hv⟩
    case vectorMatrix =>
      intro l r hlt hrt hl hr
      obtain ⟨out, hout, hlive⟩ := exists_vectorMatrix hc hl hr d hlt hrt
      refine ⟨out, hout, fun row hrow => ?_⟩
      have hin : row < s.chain.rows := LiveChain.lt_rows_of_mem_visited hrow
      obtain ⟨v, hv⟩ := d.exists_holdsVector hl hlt hin
      obtain ⟨a, ha⟩ := d.exists_holdsMatrix hr hrt hin
      exact ⟨v, a, hv, ha, hlive row hrow v a hv ha⟩
    case column =>
      exact fun l r out hlt hrt hl hr h c hcn => mul_column hc d hl hr hlt hrt h hcn
    case dot =>
      exact fun l r out hlt hrt hl hr h c hcn textures =>
        mul_component_eq_dot hc d hv hl hr hlt hrt h hcn textures
  · intro hc l r t hl hr htypes
    refine mul_stray (n := n) hc hl hr ?_
    simp only [List.mem_cons, List.not_mem_nil, or_false, Prod.mk.injEq] at htypes
    obtain ⟨hlt, hrt, rfl⟩ | ⟨hlt, hrt, rfl⟩ | ⟨hlt, hrt, rfl⟩ := htypes <;> rw [hlt, hrt]
    · exact d.matrices
    · exact d.matrixVector
    · exact d.vectorMatrix

/-- Row 0 of three is not live. Rows 1 and 2 hold a matrix with columns `(1, 1)` and `(1, 0)`. -/
theorem linear_products_mat2 :
    let s : Sweep := ⟨.build 3 [1, 2], .wide8⟩
    let ones : Lane := ⟨.float, #[.one, .one, .one]⟩
    let zeros : Lane := ⟨.float, #[.zero, .zero, .zero]⟩
    let m : Register := ⟨.mat2, 3, [ones, ones, ones, zeros]⟩
    let v : Register := ⟨.vec2, 3, [zeros, ones]⟩
    s.chain.visited = [1, 2] ∧
      (∃ out, s.binary .mul m v .vec2 = .ok out ∧
        out.component? 0 2 = some (.float (.zero + .one * .zero + .one * .one)) ∧
        out.component? 0 0 = some (.float .zero)) ∧
      s.binary .mul m (.zeroed .vec3 3) .vec3 =
        Outcome.mismatch (.dimensions 2 .mat2 .vec3) := by
  intro s ones zeros m v
  have hvisited : s.chain.visited = [1, 2] := by decide +kernel
  have hc : s.chain.Closed :=
    (LiveChain.canonical_build ⟨by decide, by decide, by decide⟩ : s.chain.Canonical).closed
  have hm : m.Spans 3 :=
    ⟨⟨rfl, by simp [m, ones, zeros]; rfl, by simp [m, ones, zeros, Lane.rows]⟩, rfl⟩
  have hv : v.Spans 3 :=
    ⟨⟨rfl, by simp [v, ones, zeros]; rfl, by simp [v, ones, zeros, Lane.rows]⟩, rfl⟩
  obtain ⟨hproducts, hmismatch⟩ := linear_products s
  refine ⟨hvisited, ?_, hmismatch m (.zeroed .vec3 3) .vec3 (by decide) (by decide) (by decide)
    rfl rfl (by decide)⟩
  obtain ⟨out, hout, hlive⟩ :=
    ((hproducts 2 .mat2 .vec2 rfl rfl).1 hc).matrixVector m v rfl rfl hm hv
  obtain ⟨a, w, ha, hw, hrow⟩ := hlive 2 (by rw [hvisited]; decide)
  refine ⟨out, hout.eq_ok, ?_, hout.zero 0 (by decide) 0 (by decide) (by rw [hvisited]; decide)⟩
  -- the entries of the matrix and the vector at the row
  have ha₀ : Binary32.one = a 0 0 := by
    simpa [m, ones, Register.component?, Lane.get?, Scalar.float] using
      ha 0 (by decide) 0 (by decide)
  have ha₁ : Binary32.one = a 0 1 := by
    simpa [m, ones, Register.component?, Lane.get?, Scalar.float] using
      ha 0 (by decide) 1 (by decide)
  have hw₀ : Binary32.zero = w 0 := by
    simpa [v, zeros, Register.component?, Lane.get?, Scalar.float] using hw 0 (by decide)
  have hw₁ : Binary32.one = w 1 := by
    simpa [v, ones, Register.component?, Lane.get?, Scalar.float] using hw 1 (by decide)
  have hsum : mulVec 2 a w 0 = .zero + a 0 0 * w 0 + a 0 1 * w 1 := rfl
  rw [hrow 0 (by decide), hsum, ← ha₀, ← ha₁, ← hw₀, ← hw₁]

end Sweep

end BatchShader
