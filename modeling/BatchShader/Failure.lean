import BatchShader.Signature
import BatchShader.Declaration.Token
import BatchShader.Operator

/-
  Why an operation has no result.

  An `EngineError` is a fault of the input that the engine reports; its cause is kept, and
  `EngineError.message` words it. A `Failure` is such an error or `outOfRange`, an access to a row,
  a lane or a texel that does not exist. Access past the end is a failure of its own so that its
  absence can be stated.
-/

namespace BatchShader

/-! ## Mismatches -/

/-- Two things that should agree and do not. -/
inductive Mismatch
  /-- A value of one type where another is needed. -/
  | types (expected found : ShaderType)
  /-- A call with the wrong number of arguments. -/
  | arguments (signature : Signature) (found : Nat)
  /-- An implementation applied to the wrong number of arguments. -/
  | arity (expected found : Nat)
  /-- Registers with different numbers of rows. -/
  | rows (expected found : Nat)
  /-- A register that lacks a lane of some kind at an index. -/
  | lane (kind : Kind) (index : Nat) (found : ShaderType)
  /-- Lanes that do not make up a register. -/
  | lanes (expected : ShaderType) (found : Nat)
  /-- A value whose components are of another kind. -/
  | kinds (expected : Kind) (found : ShaderType)
  /-- Components that do not make up a value. -/
  | packing (expected : ShaderType) (count : Nat) (kind : Kind)
  /-- A type that has no values. -/
  | noValue (found : ShaderType)
  /-- An overload that cannot be evaluated without a batch. -/
  | noConstantForm
  /-- A unary operator on a type that it does not apply to. -/
  | unaryOperand (op : UnaryOp) (found : ShaderType)
  /-- A binary operator on types that it does not apply to. -/
  | operands (op : BinaryOp) (left right : ShaderType)
  /-- A product of operands of different dimensions. -/
  | dimensions (expected : Nat) (left right : ShaderType)
  /-- A selection of components that does not give the annotated type. -/
  | swizzle (expected : ShaderType) (count : Nat) (base : ShaderType)
  /-- A component that the operand does not have. -/
  | component (index : Nat) (found : ShaderType)
  /-- A constructor with too few components. -/
  | tooFewComponents (expected : ShaderType) (found : Nat)
  /-- A masked write that does not fit the written value. -/
  | maskedWrite (count : Nat) (target : String) (found : ShaderType)
  /-- A masked write to a component that the target does not have. -/
  | writeIndex (components : Nat) (target : String) (index : Nat)
  /-- A lane of a target that does not exist. -/
  | noLane (index : Nat) (target : String)
  /-- An expression whose register holds no value. -/
  | valueless (expected : ShaderType)
deriving DecidableEq, Repr

namespace Mismatch

/-- What is needed, in words. -/
def expected : Mismatch → String
  | types t _ => t.name
  | arguments s _ => toString s.params.length ++ " arguments to `" ++ s.text ++ "`"
  | arity n _ => toString n ++ " arguments"
  | rows n _ => toString n ++ " rows"
  | lane k i _ => k.name ++ " lane " ++ toString i
  | lanes t _ => toString t.components ++ " lanes of " ++ t.name
  | kinds k _ => k.name
  | packing t _ _ => t.name
  | noValue _ => "value type"
  | noConstantForm => "constant form"
  | unaryOperand op _ => "operand of unary " ++ op.name
  | operands op _ _ => "operands for `" ++ op.symbol ++ "`"
  | dimensions n _ _ => "operands of dimension " ++ toString n
  | swizzle t _ _ => t.name
  | component i _ => "component " ++ toString i
  | tooFewComponents t _ => toString t.components ++ " components for " ++ t.name
  | maskedWrite n x _ => toString n ++ "-component write to " ++ x
  | writeIndex n x _ => "component index below " ++ toString n ++ " for " ++ x
  | noLane i x => "component " ++ toString i ++ " of " ++ x
  | valueless t => t.name

/-- What is there instead, in words. -/
def found : Mismatch → String
  | types _ t => t.name
  | arguments _ n => toString n
  | arity _ n => toString n
  | rows _ n => toString n ++ " rows"
  | lane _ _ t => t.name ++ " register"
  | lanes _ n => toString n ++ " lanes"
  | kinds _ t => t.name
  | packing _ n k => toString n ++ " " ++ k.name ++ " components"
  | noValue t => t.name
  | noConstantForm => "none"
  | unaryOperand _ t => t.name
  | operands _ l r => l.name ++ " and " ++ r.name
  | dimensions _ l r => l.name ++ " * " ++ r.name
  | swizzle _ n t => toString n ++ " swizzle of " ++ t.name
  | component _ t => t.name
  | tooFewComponents _ n => toString n ++ " components"
  | maskedWrite _ _ t => t.name
  | writeIndex _ _ i => "index " ++ toString i
  | noLane _ _ => "no such lane"
  | valueless _ => "a value-less register"

end Mismatch

/-! ## Errors -/

/-- What is wrong with the settings of an engine. -/
inductive ConfigFault
  | batchRows (limit found : Nat)
  | unknownPaths (name : String)
deriving DecidableEq, Repr

def ConfigFault.text : ConfigFault → String
  | batchRows limit n =>
    "batch_rows must be in 1..=" ++ toString limit ++ ", got " ++ toString n
  | unknownPaths s => "unknown vector path policy `" ++ s ++ "`"

/-- A lock that the platform could not make. -/
structure LockError where
  reason : String
deriving DecidableEq, Repr

def LockError.message (e : LockError) : String :=
  "native lock construction failed: " ++ e.reason

/-- A fault of the input that the engine reports. -/
inductive EngineError
  /-- The overload exists but has no implementation. -/
  | unimplemented (signature : Signature)
  /-- No overload has this name and these parameter types. -/
  | unknownBuiltin (name : String) (params : List ShaderType)
  | unknownVariable (name : String)
  | typeMismatch (mismatch : Mismatch)
  | batchTooLarge (rows limit : Nat)
  | rowOutOfRange (row rows : Nat)
  /-- A texture unit with no texture for this type of sampler. -/
  | textureUnit (unit : Int32) (expected : ShaderType)
  | textureSize (width height expected found : UInt64)
  | config (fault : ConfigFault)
  | lockInit (error : LockError)
  | declaration (error : DeclError)
deriving DecidableEq

/-- The wording of an error. -/
def EngineError.message : EngineError → String
  | unimplemented s => "builtin `" ++ s.text ++ "` is not implemented"
  | unknownBuiltin name params =>
    "no builtin overload matches `" ++ Signature.callText name params ++ "`"
  | unknownVariable x => "unknown variable `" ++ x ++ "`"
  | typeMismatch m => "type mismatch: expected " ++ m.expected ++ ", found " ++ m.found
  | batchTooLarge rows limit =>
    "batch of " ++ toString rows ++ " rows exceeds the " ++ toString limit ++ "-row chain limit"
  | rowOutOfRange row rows =>
    "row " ++ toString row ++ " is outside a batch of " ++ toString rows ++ " rows"
  | textureUnit unit t =>
    "no " ++ t.name ++ " texture bound to sampler unit " ++ toString unit.toInt
  | textureSize w h expected found =>
    "texture of " ++ toString w.toNat ++ "x" ++ toString h.toNat ++ " texels needs " ++
      toString expected.toNat ++ " texels, got " ++ toString found.toNat
  | config c => "invalid engine configuration: " ++ c.text
  | lockInit e => "mutex initialization failed: " ++ e.message
  | declaration e => e.message

/-! ## Failures -/

/-- Why an operation stopped. -/
inductive Failure
  /-- An error to be reported. -/
  | error (cause : EngineError)
  /-- An access to a row, a lane, a component or a texel that does not exist. -/
  | outOfRange
deriving DecidableEq

/-- An outcome: a result, or the reason why there is none. -/
abbrev Outcome (α : Type) := Except Failure α

namespace Outcome

/-- Stops with an error to be reported. -/
def fail {α : Type} (e : EngineError) : Outcome α := .error (.error e)

/-- Stops because two things do not agree. -/
def mismatch {α : Type} (m : Mismatch) : Outcome α := fail (.typeMismatch m)

/-- An element that is expected to exist. -/
def require {α : Type} : Option α → Outcome α
  | some x => .ok x
  | none => .error .outOfRange

@[simp] theorem require_some {α : Type} (x : α) : require (some x) = .ok x := rfl

@[simp] theorem require_none {α : Type} : require (none : Option α) = .error .outOfRange := rfl

@[simp] theorem ok_bind {α β : Type} (a : α) (f : α → Outcome β) :
    (Except.ok a : Outcome α) >>= f = f a := rfl

/-- A sequence of two steps succeeds when both do. -/
theorem bind_eq_ok {α β : Type} {x : Outcome α} {f : α → Outcome β} {b : β} :
    x >>= f = .ok b ↔ ∃ a, x = .ok a ∧ f a = .ok b := by
  cases x with
  | error e => exact ⟨fun h => (nomatch h), fun ⟨_, h, _⟩ => (nomatch h)⟩
  | ok a => exact ⟨fun h => ⟨a, rfl, h⟩, fun ⟨_, h, h'⟩ => by cases h; exact h'⟩

end Outcome

end BatchShader
