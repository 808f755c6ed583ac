import BatchShader.Operator
import BatchShader.Value

/-
  Shaders: expressions and statements in which every node carries its type.

  The types are annotations. They are checked where a value meets one, and an expression whose
  annotations are wrong is an expression like any other: it fails when it is evaluated.
-/

namespace BatchShader

/-! ## Expressions -/

inductive Expr
  | const (value : Value)
  | var (name : String) (type : ShaderType)
  /-- A builtin call, resolved by name and argument types. -/
  | call (name : String) (args : List Expr) (type : ShaderType)
  | unary (op : UnaryOp) (operand : Expr) (type : ShaderType)
  | binary (op : BinaryOp) (left right : Expr) (type : ShaderType)
  /-- `cond ? yes : no` -/
  | select (cond yes no : Expr) (type : ShaderType)
  /-- A selection of components by their indices. -/
  | swizzle (base : Expr) (indices : List UInt8) (type : ShaderType)
  /-- A constructor call, such as `vec4(v, 1.0)`. -/
  | construct (type : ShaderType) (args : List Expr)

namespace Expr

/-- The annotated type. -/
def type : Expr → ShaderType
  | const v => v.type
  | var _ t | call _ _ t | unary _ _ t | binary _ _ _ t | select _ _ _ t | swizzle _ _ t
  | construct t _ => t

/-- The value of a constant. -/
def value? : Expr → Option Value
  | const v => some v
  | _ => none

def isConst (e : Expr) : Bool := e.value?.isSome

/-- The choice made by a constant condition: its first component, if it is a truth value. -/
def decided? (e : Expr) : Option Bool := do
  let v ← e.value?
  let bits ← v.data.as? .bool
  bits.head?

end Expr

/-! ## Statements -/

inductive Stmt
  /-- Assigns to all components, or with a mask to the components it lists: component `i` of the
  value goes to component `mask[i]`. Assigning to a new name without a mask declares it. -/
  | assign (target : String) (mask : Option (List UInt8)) (value : Expr)
  | branch (cond : Expr) (yes no : List Stmt)
  /-- The rows that reach it stop and are flagged. -/
  | discard

inductive Stage
  | vertex
  | fragment
deriving DecidableEq, Repr

structure Shader where
  stage : Stage
  body : List Stmt

end BatchShader
