import BatchShader.Register
import BatchShader.Sweep
import BatchShader.Texture.Units

/-
  Overloads of builtin functions.

  An overload has two slots: one runs over the live rows of a batch and writes a result register,
  the other takes one value for each parameter and needs no batch. Both check their arguments
  against the signature first.
-/

namespace BatchShader

/-- Where a builtin runs: a sweep, and the textures it may look up. -/
structure Invocation extends Sweep where
  textures : Option TextureUnits

/-- One way to carry out an overload. -/
inductive Slot (α : Type)
  | implemented (body : α)
  /-- The overload has no meaning outside a batch. -/
  | noConstantForm
  /-- The overload can be found, but not called. -/
  | notImplemented

namespace Slot

variable {α : Type}

def isImplemented : Slot α → Bool
  | implemented _ => true
  | _ => false

def text : Slot α → String
  | implemented _ => "implemented"
  | noConstantForm => "no compile-time form"
  | notImplemented => "not implemented"

end Slot

/-- Writes the result register of a call. -/
abbrev RuntimeBody := Invocation → List Register → Register.Writer Unit

/-- Computes the value of a call on constants. -/
abbrev ConstantBody := List Value → Outcome Value

structure Implementation where
  runtime : Slot RuntimeBody
  constant : Slot ConstantBody

namespace Implementation

/-- Both slots at hand. -/
def both (runtime : RuntimeBody) (constant : ConstantBody) : Implementation :=
  ⟨.implemented runtime, .implemented constant⟩

/-- An overload that only a batch can call. -/
def runtimeOnly (runtime : RuntimeBody) : Implementation := ⟨.implemented runtime, .noConstantForm⟩

/-- An overload that cannot be called. -/
def missing : Implementation := ⟨.notImplemented, .notImplemented⟩

end Implementation

/-- A signature and what carries it out. -/
structure Overload (ι : Type) where
  signature : Signature
  body : ι

abbrev Builtin := Overload Implementation

namespace Builtin

/-- Whether argument types are the parameter types of a signature. -/
def checkTypes (s : Signature) (found : List ShaderType) : Outcome Unit :=
  if found.length ≠ s.params.length then Outcome.mismatch (.arguments s found.length)
  else
    match (s.params.zip found).find? fun (p, t) => p != t with
    | some (p, t) => Outcome.mismatch (.types p t)
    | none => .ok ()

/-- Whether a call fits the signature: argument types, result type, and the rows of every
register. -/
def checkCall (b : Builtin) (inv : Invocation) (args : List Register) (out : Register) :
    Outcome Unit := do
  checkTypes b.signature (args.map Register.type)
  if out.type ≠ b.signature.result then
    Outcome.mismatch (.types b.signature.result out.type)
  match (args ++ [out]).find? (·.rows != inv.chain.rows) with
  | some r => Outcome.mismatch (.rows inv.chain.rows r.rows)
  | none => .ok ()

/-- Runs the overload over the live rows, writing the result register. -/
def execute (b : Builtin) (inv : Invocation) (args : List Register) : Register.Writer Unit :=
  match b.body.runtime with
  | .implemented run => do
    ofExcept (b.checkCall inv args (← get))
    run inv args
  | _ => throw (.error (.unimplemented b.signature))

/-- The value of the overload on constants; none if it has no constant form. -/
def evaluate (b : Builtin) (args : List Value) : Outcome (Option Value) :=
  match b.body.constant with
  | .implemented f => do
    checkTypes b.signature (args.map Value.type)
    return some (← f args)
  | .noConstantForm => .ok none
  | .notImplemented => Outcome.fail (.unimplemented b.signature)

/-- Whether both slots are implemented. -/
def hasBothSlots (b : Builtin) : Bool :=
  b.body.runtime.isImplemented && b.body.constant.isImplemented

end Builtin

end BatchShader
