import BatchShader.Failure

/-
  What a platform offers: native locks that can be made, taken, given back and destroyed.

  Making one may fail. A platform is described by which attempts fail; its calls are recorded in
  order.
-/

namespace BatchShader.Lock

/-- A call of the platform. -/
inductive NativeCall
  /-- Making a native lock, and whether it was made. -/
  | create (made : Bool)
  | lock
  | unlock
  /-- Destroying a native lock. -/
  | destroy
deriving DecidableEq, Repr

namespace NativeCall

def name : NativeCall → String
  | create _ => "create"
  | lock => "lock"
  | unlock => "unlock"
  | destroy => "drop"

end NativeCall

/-- The error of an attempt that is bound to fail. -/
def scriptedFailure : LockError := ⟨"scripted failure"⟩

end BatchShader.Lock
