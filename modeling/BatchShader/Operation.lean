import BatchShader.Binary32.Functions
import BatchShader.Builtin.Componentwise
import BatchShader.Conversion

/-
  Operators, swizzles and constructors on registers.

  Each operation starts from a zeroed register of the annotated type and writes its live rows, so
  rows that are not live hold zero in the result.
-/

namespace BatchShader.Sweep

/-- The zeroed result of an operation. -/
def blank (s : Sweep) (t : ShaderType) : Register := Register.zeroed t s.chain.rows

/-! ## Componentwise operators -/

/-- `out[i] = op l[i] r[i]` for each component of the result, an operand with one component being
used for all. -/
def zip {a b c : Kind} (s : Sweep) (l r out : Register) (op : a.Elem → b.Elem → c.Elem) :
    Outcome Register :=
  (List.range out.type.components).foldlM
    (fun out i => do
      let xs ← Builtin.sourceLane l a i
      let ys ← Builtin.sourceLane r b i
      out.modifyLane c i fun zs => s.map2 xs ys zs op)
    out

/-- An arithmetic operator on floats. -/
def zipFloat (s : Sweep) (l r out : Register) (op : Binary32 → Binary32 → Binary32) :
    Outcome Register := s.zip (a := .float) (b := .float) (c := .float) l r out op

/-- An arithmetic operator on integers. -/
def zipInt (s : Sweep) (l r out : Register) (op : Int32 → Int32 → Int32) : Outcome Register :=
  s.zip (a := .int) (b := .int) (c := .int) l r out op

/-- A logical operator. -/
def zipBool (s : Sweep) (l r out : Register) (op : Bool → Bool → Bool) : Outcome Register :=
  s.zip (a := .bool) (b := .bool) (c := .bool) l r out op

/-- A comparison of components. -/
def zipRelation (s : Sweep) (k : Kind) (l r out : Register) (op : k.Elem → k.Elem → Bool) :
    Outcome Register := s.zip (a := k) (b := k) (c := .bool) l r out op

/-- Whether the operands are equal (or, if `wanted` is false, whether they differ) in their
components taken together. -/
def aggregate (s : Sweep) (k : Kind) (wanted : Bool) (l r out : Register) : Outcome Register := do
  let out ← out.modifyLane .bool 0 fun acc => do
    s.map2 (← l.lane k 0) (← r.lane k 0) acc fun x y => k.equal x y == wanted
  (List.range' 1 (l.type.components - 1)).foldlM
    (fun out i =>
      out.modifyLane .bool 0 fun acc => do
        s.update2 acc (← l.lane k i) (← r.lane k i) fun acc x y =>
          if wanted then acc && k.equal x y else acc || !k.equal x y)
    out

/-! ## Unary operators -/

/-- The function that a unary operator applies to each component of a kind, if it has one. -/
def unaryFunction? : UnaryOp → (k : Kind) → Option (k.Elem → k.Elem)
  | .neg, .float => some fun (x : Binary32) => -x
  | .neg, .int => some fun (n : Int32) => -n
  | .not, .bool => some fun (b : Bool) => !b
  | _, _ => none

/-- A unary operator. Operand and result have the annotated type. -/
def unary (s : Sweep) (op : UnaryOp) (operand : Register) (t : ShaderType) : Outcome Register :=
  if operand.type ≠ t then Outcome.mismatch (.types t operand.type)
  else
    match t.kind? with
    | none => .ok (s.blank t)
    | some k =>
      match unaryFunction? op k with
      | none => Outcome.mismatch (.unaryOperand op t)
      | some f =>
        (List.range t.components).foldlM
          (fun out i => do
            let xs ← operand.lane k i
            out.modifyLane k i fun ys => s.map1 xs ys f)
          (s.blank t)

/-! ## Products of matrices and vectors -/

/-- Which lanes are multiplied and added up for each lane of a product of dimension `n`. Matrices
are stored by columns: lane `c * n + r` is row `r` of column `c`. -/
def productTerms (n : Nat) (leftIsMatrix rightIsMatrix : Bool) :
    List (Nat × List (Nat × Nat)) :=
  let ns := List.range n
  match leftIsMatrix, rightIsMatrix with
  | true, true =>
    ns.flatMap fun c => ns.map fun r => (c * n + r, ns.map fun k => (k * n + r, c * n + k))
  | true, false => ns.map fun r => (r, ns.map fun k => (k * n + r, k))
  | false, _ => ns.map fun c => (c, ns.map fun k => (k, c * n + k))

/-- Whether a type takes part in products of dimension `n`. -/
def hasDimension (n : Nat) (t : ShaderType) : Bool :=
  if t.isMatrix then t.dimension == n else t.components == n

/-- Adds the products of lane pairs to a lane of the result, one after the other. -/
def accumulateProducts (s : Sweep) (l r out : Register) (dst : Nat) (pairs : List (Nat × Nat)) :
    Outcome Register := do
  let acc ← out.lane .float dst
  let acc ← pairs.foldlM
    (fun acc (a, b) => do
      s.update2 acc (← l.lane .float a) (← r.lane .float b) Binary32.dotStep)
    acc
  return out.setLane dst ⟨.float, acc⟩

/-- The product of a matrix with a matrix or a vector, added up from zero. -/
def linearProduct (s : Sweep) (l r out : Register) : Outcome Register :=
  let n := if l.type.isMatrix then l.type.dimension else r.type.dimension
  if hasDimension n l.type && hasDimension n r.type then
    (productTerms n l.type.isMatrix r.type.isMatrix).foldlM
      (fun out (dst, pairs) => s.accumulateProducts l r out dst pairs) out
  else Outcome.mismatch (.dimensions n l.type r.type)

/-! ## Binary operators -/

/-- Integer division toward zero; a quotient by zero is zero. -/
def divideInt (x y : Int32) : Int32 := if y = 0 then 0 else x / y

/-- Whether an operator multiplies a matrix by a matrix or a vector. -/
def isLinear (op : BinaryOp) (l r : ShaderType) : Bool :=
  op == .mul && (l.isMatrix || r.isMatrix) && !l.isScalar && !r.isScalar

/-- An operator on operands of one kind, component by component, or as a whole for equality. -/
def componentwise (s : Sweep) (op : BinaryOp) (k : Kind) (l r out : Register) :
    Outcome Register :=
  match op, k with
  | .add, .float => s.zipFloat l r out (· + ·)
  | .sub, .float => s.zipFloat l r out (· - ·)
  | .mul, .float => s.zipFloat l r out (· * ·)
  | .div, .float => s.zipFloat l r out (· / ·)
  | .add, .int => s.zipInt l r out (· + ·)
  | .sub, .int => s.zipInt l r out (· - ·)
  | .mul, .int => s.zipInt l r out (· * ·)
  | .div, .int => s.zipInt l r out divideInt
  | .less, .float => s.zipRelation .float l r out Binary32.lt
  | .lessEqual, .float => s.zipRelation .float l r out Binary32.le
  | .greater, .float => s.zipRelation .float l r out fun x y => Binary32.lt y x
  | .greaterEqual, .float => s.zipRelation .float l r out fun x y => Binary32.le y x
  | .less, .int => s.zipRelation .int l r out (· < · : Int32 → Int32 → Bool)
  | .lessEqual, .int => s.zipRelation .int l r out (· ≤ · : Int32 → Int32 → Bool)
  | .greater, .int => s.zipRelation .int l r out (· > · : Int32 → Int32 → Bool)
  | .greaterEqual, .int => s.zipRelation .int l r out (· ≥ · : Int32 → Int32 → Bool)
  | .equal, k =>
    if l.type = r.type then s.aggregate k true l r out
    else Outcome.mismatch (.types l.type r.type)
  | .notEqual, k =>
    if l.type = r.type then s.aggregate k false l r out
    else Outcome.mismatch (.types l.type r.type)
  | .and, .bool => s.zipBool l r out (· && ·)
  | .or, .bool => s.zipBool l r out (· || ·)
  | .xor, .bool => s.zipBool l r out (· != ·)
  | op, _ => Outcome.mismatch (.operands op l.type r.type)

/-- A binary operator. Operands have one kind; the result has the annotated type. -/
def binary (s : Sweep) (op : BinaryOp) (l r : Register) (t : ShaderType) : Outcome Register :=
  if l.type.kind? ≠ r.type.kind? then Outcome.mismatch (.types l.type r.type)
  else if isLinear op l.type r.type then s.linearProduct l r (s.blank t)
  else
    match l.type.kind? with
    | some k => s.componentwise op k l r (s.blank t)
    | none => Outcome.mismatch (.operands op l.type r.type)

/-! ## Swizzles -/

/-- A selection of components of a register. -/
def swizzle (s : Sweep) (base : Register) (indices : List UInt8) (t : ShaderType) :
    Outcome Register :=
  if indices.length ≠ t.components ∨ t.kind? ≠ base.type.kind? then
    Outcome.mismatch (.swizzle t indices.length base.type)
  else
    indices.zipIdx.foldlM
      (fun out (c, i) =>
        match base.lanes[c.toNat]? with
        | some src => s.convertInto src out i
        | none => Outcome.mismatch (.component c.toNat base.type))
      (s.blank t)

/-! ## Constructors -/

/-- A scalar in every component, or on the diagonal of a matrix. -/
def constructFromScalar (s : Sweep) (t : ShaderType) (arg : Register) : Outcome Register := do
  let src ← Outcome.require arg.lanes[0]?
  let targets :=
    if t.isMatrix then (List.range t.dimension).map fun d => d * t.dimension + d
    else List.range t.components
  targets.foldlM (fun out i => s.convertInto src out i) (s.blank t)

/-- A matrix from a matrix: the common upper left part, and the identity elsewhere. -/
def constructFromMatrix (s : Sweep) (t : ShaderType) (arg : Register) : Outcome Register :=
  let n := t.dimension
  let m := arg.type.dimension
  let places := (List.range n).flatMap fun c => (List.range n).map fun r => (c, r)
  places.foldlM
    (fun out (c, r) =>
      if c < m ∧ r < m then do
        s.convertInto (← Outcome.require arg.lanes[c * m + r]?) out (c * n + r)
      else if c = r then s.fillOneInto out (c * n + r)
      else .ok out)
    (s.blank t)

/-- The first components of the arguments taken together, as many as the type has. -/
def constructFromComponents (s : Sweep) (t : ShaderType) (args : List Register) :
    Outcome Register :=
  let sources := (args.flatMap Register.lanes).take t.components
  if sources.length < t.components then Outcome.mismatch (.tooFewComponents t sources.length)
  else sources.zipIdx.foldlM (fun out (src, i) => s.convertInto src out i) (s.blank t)

/-- A constructor call. Components are converted to the kind of the constructed type. -/
def construct (s : Sweep) (t : ShaderType) (args : List Register) : Outcome Register :=
  match args with
  | [arg] =>
    if arg.type.isScalar then s.constructFromScalar t arg
    else if arg.type.isMatrix && t.isMatrix then s.constructFromMatrix t arg
    else s.constructFromComponents t [arg]
  | args => s.constructFromComponents t args

end BatchShader.Sweep
