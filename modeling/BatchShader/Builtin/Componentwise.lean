import BatchShader.Builtin.Overload

/-
  Builtins that apply one scalar function to each component.

  The function takes one component of each argument. An argument with a single component is used
  for every component of the result, so one definition serves `min(vec3, vec3)` and
  `min(vec3, float)`. `reduce` instead joins the components of its one argument, from the first to
  the last.
-/

namespace BatchShader.Builtin

/-! ## Functions of components -/

/-- A function of one component of each kind, to a component of kind `r`. -/
def ElemFun (r : Kind) : List Kind → Type
  | [] => r.Elem
  | k :: ks => k.Elem → ElemFun r ks

/-- One column of each kind. -/
def Columns : List Kind → Type
  | [] => Unit
  | k :: ks => Array k.Elem × Columns ks

/-- Applies a function to one element of each column: to the one at `index n` of a column with `n`
elements. -/
def ElemFun.applyAt {r : Kind} (index : Nat → Nat) :
    (ks : List Kind) → ElemFun r ks → Columns ks → Outcome r.Elem
  | [], x, _ => .ok x
  | _ :: ks, f, (c, cs) => do applyAt index ks (f (← rowOf c (index c.size))) cs

/-! ## Arguments -/

/-- The component of an argument that feeds component `i` of the result. -/
def sourceIndex (i components : Nat) : Nat := if components = 1 then 0 else i

/-- The lane of an argument that feeds component `i` of the result. -/
def sourceLane (r : Register) (k : Kind) (i : Nat) : Outcome (Array k.Elem) :=
  r.lane k (sourceIndex i r.type.components)

/-- The components of a constant, which have to be of kind `k`. -/
def elems (k : Kind) (v : Value) : Outcome (List k.Elem) :=
  match v.data.as? k with
  | some xs => .ok xs
  | none => Outcome.mismatch (.kinds k v.type)

/-- A column from each argument. There have to be as many arguments as kinds. -/
def columnsOf {α : Type} (column : α → (k : Kind) → Outcome (Array k.Elem)) :
    (ks : List Kind) → List α → Outcome (Columns ks)
  | [], _ => .ok ()
  | _ :: _, [] => .error .outOfRange
  | k :: ks, x :: xs => do
    let c ← column x k
    return (c, ← columnsOf column ks xs)

/-- The value of type `t` with the given components. -/
def pack (t : ShaderType) (k : Kind) (xs : List k.Elem) : Outcome Value :=
  match Value.new? t ⟨k, xs⟩ with
  | some v => .ok v
  | none => Outcome.mismatch (.packing t xs.length k)

/-- The failure of an implementation applied to the wrong number of arguments. -/
def wrongArity (expected found : Nat) : Failure :=
  .error (.typeMismatch (.arity expected found))

/-- Refuses the wrong number of arguments. -/
def checkArity (expected found : Nat) : Outcome Unit :=
  if found = expected then .ok () else .error (wrongArity expected found)

/-! ## Implementations -/

/-- Applies a function of one component of each argument. -/
def componentwise {r : Kind} (ks : List Kind) (f : ElemFun r ks) (s : Signature) :
    Implementation :=
  .both
    (fun inv args => do
      ofExcept (checkArity ks.length args.length)
      (List.range s.result.components).forM fun i => do
        let columns ← ofExcept (columnsOf (sourceLane · · i) ks args)
        Register.modify r i fun out => inv.map (fun row => f.applyAt (fun _ => row) ks columns) out)
    (fun args => do
      checkArity ks.length args.length
      let columns ← columnsOf (fun v k => return (← elems k v).toArray) ks args
      let xs ← (List.range s.result.components).mapM fun i =>
        f.applyAt (sourceIndex i) ks columns
      pack s.result r xs)

/-- Joins the components of one argument into a scalar. -/
def reduce {k : Kind} (op : k.Elem → k.Elem → k.Elem) (s : Signature) : Implementation :=
  .both
    (fun inv args =>
      match args with
      | [x] => do
        Register.modify k 0 fun acc => do inv.map1 (← x.lane k 0) acc id
        (List.range' 1 (x.type.components - 1)).forM fun i =>
          Register.modify k 0 fun acc => do inv.update1 acc (← x.lane k i) op
      | _ => throw (wrongArity 1 args.length))
    (fun args =>
      match args with
      | [x] => do
        match ← elems k x with
        | first :: rest => pack s.result k [rest.foldl op first]
        | [] => .error (wrongArity 1 0)
      | _ => .error (wrongArity 1 args.length))

end BatchShader.Builtin
