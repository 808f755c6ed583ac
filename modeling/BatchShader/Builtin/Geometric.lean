import BatchShader.Builtin.Componentwise
import BatchShader.Binary32.Functions

/-
  Builtins that combine the components of vectors: products, lengths and directions.

  Sums run over the components from the first to the last, starting from zero, and round at every
  step. Over a batch the last step and what follows it (such as the square root of `length`) are
  one pass.
-/

namespace BatchShader.Builtin

/-- A step of a sum over component pairs. -/
abbrev SumStep := Binary32 → Binary32 → Binary32 → Binary32

/-! ## Sums over components -/

/-- The sum over all components, row by row. -/
def sumLanes (sweep : Sweep) (x y : Register) (step : SumStep) (finish : Binary32 → Binary32)
    (acc : Array Binary32) : Outcome (Array Binary32) := do
  let n := x.type.components
  let acc ← sweep.map1 (← x.lane .float 0) acc fun _ => Binary32.zero
  (List.range n).foldlM
    (fun acc i => do
      let a ← x.lane .float i
      let b ← y.lane .float i
      sweep.update2 acc a b fun r a b => if i + 1 = n then finish (step r a b) else step r a b)
    acc

/-- The sum over the components of two constants. -/
def sumElems (xs ys : List Binary32) (step : SumStep) (finish : Binary32 → Binary32) : Binary32 :=
  finish ((xs.zip ys).foldl (fun acc (a, b) => step acc a b) .zero)

/-! ## Products and lengths -/

/-- The two operands of a sum: a single argument is both. -/
def operandPair {α : Type} (s : Signature) (args : List α) : Outcome (α × α) :=
  let arity := if s.params.length = 1 then 1 else 2
  match args with
  | [x] => if arity = 1 then .ok (x, x) else .error (wrongArity arity 1)
  | [x, y] => if arity = 2 then .ok (x, y) else .error (wrongArity arity 2)
  | _ => .error (wrongArity arity args.length)

/-- A sum over component pairs as a float. -/
def pairSum (step : SumStep) (finish : Binary32 → Binary32) (s : Signature) : Implementation :=
  .both
    (fun inv args => do
      let (x, y) ← ofExcept (operandPair s args)
      Register.modify .float 0 (sumLanes inv.toSweep x y step finish))
    (fun args => do
      let (x, y) ← operandPair s args
      pack s.result .float [sumElems (← elems .float x) (← elems .float y) step finish])

def dot : Signature → Implementation := pairSum Binary32.dotStep id

def length : Signature → Implementation := pairSum Binary32.dotStep Binary32.sqrt

def distance : Signature → Implementation := pairSum Binary32.distanceStep Binary32.sqrt

/-! ## Directions -/

/-- The argument divided by its length. -/
def normalize (s : Signature) : Implementation :=
  .both
    (fun inv args =>
      match args with
      | [x] => do
        let len ← ofExcept <| sumLanes inv.toSweep x x Binary32.dotStep Binary32.sqrt
          (Array.replicate x.rows .zero)
        (List.range s.result.components).forM fun i => do
          let xs ← ofExcept (x.lane .float i)
          Register.modify .float i fun out => inv.map2 xs len out fun a l => a / l
      | _ => throw (wrongArity 1 args.length))
    (fun args =>
      match args with
      | [x] => do
        let xs ← elems .float x
        let len := sumElems xs xs Binary32.dotStep Binary32.sqrt
        pack s.result .float (xs.map (· / len))
      | _ => .error (wrongArity 1 args.length))

/-- Which components of the operands make up each component of a cross product. -/
def crossIndices : List (Nat × Nat) := [(1, 2), (2, 0), (0, 1)]

/-- The cross product of vectors with three components. -/
def cross (_ : Signature) : Implementation :=
  .both
    (fun inv args =>
      match args with
      | [x, y] =>
        crossIndices.zipIdx.forM fun ((j, k), i) => do
          let xj ← ofExcept (x.lane .float j)
          let yk ← ofExcept (y.lane .float k)
          let yj ← ofExcept (y.lane .float j)
          let xk ← ofExcept (x.lane .float k)
          Register.modify .float i fun out => inv.map4 xj yk yj xk out Binary32.crossTerm
      | _ => throw (wrongArity 2 args.length))
    (fun args =>
      match args with
      | [x, y] => do
        let xs ← elems .float x
        let ys ← elems .float y
        let zs ← crossIndices.mapM fun (j, k) =>
          return Binary32.crossTerm (← Outcome.require xs[j]?) (← Outcome.require ys[k]?)
            (← Outcome.require ys[j]?) (← Outcome.require xs[k]?)
        pack .vec3 .float zs
      | _ => .error (wrongArity 2 args.length))

/-- The first argument, turned so that it faces against the second as seen from the third. -/
def faceforward (s : Signature) : Implementation :=
  .both
    (fun inv args =>
      match args with
      | [n, i, nref] => do
        let d ← ofExcept <| sumLanes inv.toSweep nref i Binary32.dotStep id
          (Array.replicate n.rows .zero)
        (List.range s.result.components).forM fun c => do
          let ns ← ofExcept (n.lane .float c)
          Register.modify .float c fun out => inv.map2 ns d out Binary32.faceToward
      | _ => throw (wrongArity 3 args.length))
    (fun args =>
      match args with
      | [n, i, nref] => do
        let d := sumElems (← elems .float nref) (← elems .float i) Binary32.dotStep id
        pack s.result .float ((← elems .float n).map (Binary32.faceToward · d))
      | _ => .error (wrongArity 3 args.length))

end BatchShader.Builtin
