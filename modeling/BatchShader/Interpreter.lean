import BatchShader.Batch
import BatchShader.Builtin.Registry
import BatchShader.Config
import BatchShader.Operation
import BatchShader.Shader

/-
  Evaluation of expressions and execution of statements over a batch.

  Both run under a chain of live rows. A branch splits the chain on its condition and runs each side
  under its own part; rows that a side discards do not come back. Execution is an action on the
  batch that keeps what was done before a failure.
-/

namespace BatchShader

/-- The overloads to call, and the settings. -/
structure Interpreter where
  registry : Registry Implementation
  config : Config

namespace Interpreter

/-- An interpreter with valid settings. -/
def new (registry : Registry Implementation) (config : Config) : Outcome Interpreter := do
  config.validate
  return ⟨registry, config⟩

/-- The interpreter for single constants: one row, one row at a time. -/
def forConstants (registry : Registry Implementation) : Interpreter :=
  ⟨registry, ⟨1, .scalar, false⟩⟩

/-- The sweep over a chain under the interpreter's policy. -/
def sweep (it : Interpreter) (chain : LiveChain) : Sweep := ⟨chain, it.config.paths⟩

/-! ## Expressions -/

/-- Calls the overload for the types of the arguments. -/
def call (it : Interpreter) (batch : Batch) (chain : LiveChain) (name : String)
    (args : List Register) (t : ShaderType) : Outcome Register := do
  let overload ← it.registry.lookup name (args.map Register.type)
  let inv : Invocation := ⟨it.sweep chain, some batch.textures⟩
  match (Builtin.execute overload inv args).run (Register.zeroed t batch.rows) with
  | .ok _ out => .ok out
  | .error e _ => .error e

/-- Splits a chain on the register of a condition: the rows where it is true, then the others. -/
def splitOn (chain : LiveChain) (cond : Register) : Outcome (LiveChain × LiveChain) := do
  if cond.type ≠ .bool then Outcome.mismatch (.types .bool cond.type)
  chain.split (← cond.lane .bool 0)

/-- Copies an arm of a selection into its result on the rows of a chain. -/
def mergeArm (it : Interpreter) (chain : LiveChain) (value out : Register) : Outcome Register := do
  if value.type ≠ out.type then Outcome.mismatch (.types out.type value.type)
  value.lanes.zipIdx.foldlM (fun out (src, i) => (it.sweep chain).convertInto src out i) out

mutual

/-- The register of an expression under a chain. Rows that are not live hold zero, except in a
variable, which is taken as it is, and in a constant, which is the same on every row. -/
def eval (it : Interpreter) (batch : Batch) (chain : LiveChain) : Expr → Outcome Register
  | .const v => .ok (Register.splat v batch.rows)
  | .var name t => do
    let r ← batch.register name
    if r.type ≠ t then Outcome.mismatch (.types t r.type) else .ok r
  | .call name args t => do
    it.call batch chain name (← it.evalAll batch chain args) t
  | .unary op x t => do
    (it.sweep chain).unary op (← it.eval batch chain x) t
  | .binary op l r t => do
    let l ← it.eval batch chain l
    let r ← it.eval batch chain r
    (it.sweep chain).binary op l r t
  | .select cond yes no t => do
    let (taken, notTaken) ← splitOn chain (← it.eval batch chain cond)
    let out := Register.zeroed t batch.rows
    let out ← if taken.isEmpty then pure out
      else do it.mergeArm taken (← it.eval batch taken yes) out
    if notTaken.isEmpty then pure out
    else do it.mergeArm notTaken (← it.eval batch notTaken no) out
  | .swizzle base indices t => do
    (it.sweep chain).swizzle (← it.eval batch chain base) indices t
  | .construct t args => do
    (it.sweep chain).construct t (← it.evalAll batch chain args)

/-- The registers of several expressions, from the first to the last. -/
def evalAll (it : Interpreter) (batch : Batch) (chain : LiveChain) :
    List Expr → Outcome (List Register)
  | [] => .ok []
  | e :: es => do
    let r ← it.eval batch chain e
    return r :: (← it.evalAll batch chain es)

end

/-- The register of an expression under the chain of the batch. -/
def evaluate (it : Interpreter) (batch : Batch) (e : Expr) : Outcome Register :=
  it.eval batch batch.chain e

/-! ## Statements -/

/-- An action on a batch: it keeps what was done before a failure. -/
abbrev Action (α : Type) := EStateM Failure Batch α

/-- The lanes of `dst` that an assignment writes, in the order of the components of the value. -/
def targetLanes (target : String) (mask : Option (List UInt8)) (dst value : Register) :
    Outcome (List Nat) :=
  match mask with
  | none =>
    if dst.type ≠ value.type then Outcome.mismatch (.types dst.type value.type)
    else .ok (List.range value.type.components)
  | some indices =>
    if indices.length ≠ value.type.components ∨ dst.type.kind? ≠ value.type.kind? then
      Outcome.mismatch (.maskedWrite indices.length target value.type)
    else
      match indices.find? fun c => dst.type.components ≤ c.toNat with
      | some c => Outcome.mismatch (.writeIndex dst.type.components target c.toNat)
      | none => .ok (indices.map UInt8.toNat)

/-- Converts each component of a value into its lane of the target. -/
def writeLanes (it : Interpreter) (chain : LiveChain) (target : String) (value : Register)
    (lanes : List Nat) (dst : Register) : Outcome Register :=
  lanes.zipIdx.foldlM
    (fun dst (lane, i) =>
      match value.lanes[i]?, dst.lanes[lane]? with
      | some src, some _ => (it.sweep chain).convertInto src dst lane
      | _, _ => Outcome.mismatch (.noLane lane target))
    dst

/-- Makes sure that an assignment has a target: an unmasked one declares it. -/
def declareTarget (target : String) (mask : Option (List UInt8)) (t : ShaderType) :
    Action Unit := do
  let batch ← get
  if !batch.store.contains target then
    if mask.isSome then throw (.error (.unknownVariable target))
    else
      let store ← ofExcept (batch.store.insert target (Register.zeroed t batch.rows))
      set { batch with store }

/-- Writes a value to a target on the live rows of a chain. -/
def assign (it : Interpreter) (chain : LiveChain) (target : String) (mask : Option (List UInt8))
    (value : Register) : Action Unit := do
  declareTarget target mask value.type
  let batch ← get
  let dst ← ofExcept (batch.register target)
  let lanes ← ofExcept (targetLanes target mask dst value)
  let written ← ofExcept (it.writeLanes chain target value lanes dst)
  set { batch with store := batch.store.put target written }

mutual

/-- Executes a statement under a chain with a live row. The result is the chain of the rows that go
on to the next statement. -/
def execStmt (it : Interpreter) (chain : LiveChain) : Stmt → Action LiveChain
  | .assign target mask e => do
    let value ← ofExcept (it.eval (← get) chain e)
    it.assign chain target mask value
    return chain
  | .branch cond yes no => do
    let value ← ofExcept (it.eval (← get) chain cond)
    let (taken, notTaken) ← ofExcept (splitOn chain value)
    it.execBlock taken yes
    it.execBlock notTaken no
    let batch ← get
    return chain.filter fun row => !batch.isDiscarded row
  | .discard => do
    set (← ofExcept ((← get).discardRows chain))
    return chain.cleared

/-- Executes statements in turn, until none is left or no row is live. -/
def execBlock (it : Interpreter) (chain : LiveChain) : List Stmt → Action Unit
  | [] => return ()
  | s :: rest =>
    if chain.isEmpty then return ()
    else do
      let chain ← it.execStmt chain s
      it.execBlock chain rest

end

/-- Executes statements under the chain of the batch, as they are. -/
def exec (it : Interpreter) (body : List Stmt) : Action Unit := do
  let batch ← get
  it.execBlock batch.chain body

end Interpreter

end BatchShader
