import BatchShader.Lock.Platform

/-
  The life of a lock object.

  The object starts without a native lock. `makeReady` makes one, which may fail and be tried
  again; `cleanup` destroys it. In between the lock can be entered and left; at any other time that
  is a misuse, which changes nothing. Calls of the platform are recorded in order.
-/

namespace BatchShader.Lock

/-- Why an operation on a lock object did not go through. -/
inductive Fault
  /-- The native lock could not be made. -/
  | notMade (error : LockError)
  /-- The object has no native lock. -/
  | notReady
  /-- The body of a critical section gave up. -/
  | bodyFailed
deriving DecidableEq, Repr

def Fault.message : Fault → String
  | notMade e => e.message
  | notReady => "mutex used before finish_initialization succeeded"
  | bodyFailed => "inside"

/-- A lock object and its platform. -/
structure Lifecycle where
  /-- Whether there is a native lock. -/
  ready : Bool
  /-- Which of the next attempts to make a native lock fail; later ones do not. -/
  failures : List Bool
  /-- The calls of the platform so far. -/
  calls : List NativeCall
deriving DecidableEq, Repr

/-- An action on a lock object. -/
abbrev LifecycleAction (α : Type) := EStateM Fault Lifecycle α

namespace Lifecycle

/-- An object without a native lock, on a platform that fails as listed. -/
def new (failures : List Bool) : Lifecycle := ⟨false, failures, []⟩

/-- Records a call of the platform. -/
def record (c : NativeCall) : LifecycleAction Unit :=
  modify fun l => { l with calls := l.calls ++ [c] }

/-- Makes the native lock, unless there is one. -/
def makeReady : LifecycleAction Unit := do
  let l ← get
  if l.ready then return ()
  else if l.failures.headD false then
    set { l with failures := l.failures.tail, calls := l.calls ++ [NativeCall.create false] }
    throw (Fault.notMade scriptedFailure)
  else
    set { l with
      ready := true, failures := l.failures.tail, calls := l.calls ++ [NativeCall.create true] }

/-- A call of the native lock, which has to be there. -/
def callNative (c : NativeCall) : LifecycleAction Unit := do
  let l ← get
  if l.ready then record c else throw Fault.notReady

def enter : LifecycleAction Unit := callNative .lock

def leave : LifecycleAction Unit := callNative .unlock

/-- A critical section around a body, which is left whether the body goes through or gives up. -/
def critical {α : Type} (body : LifecycleAction α) : LifecycleAction α := do
  enter
  try body finally leave

/-- Destroys the native lock, if there is one. This is also how an object ends, and what it leaves
behind is what a new object starts with. -/
def cleanup : LifecycleAction Unit := do
  let l ← get
  if l.ready then set { l with ready := false, calls := l.calls ++ [NativeCall.destroy] }

/-- An operation on a lock object. -/
inductive Command
  | makeReady
  | enter
  | leave
  | critical (bodyFails : Bool)
  | cleanup
  /-- Changes nothing. -/
  | observe
deriving DecidableEq, Repr

/-- Carries out an operation. -/
def perform : Command → LifecycleAction Unit
  | .makeReady => makeReady
  | .enter => enter
  | .leave => leave
  | .critical bodyFails => critical (if bodyFails then throw Fault.bodyFailed else return ())
  | .cleanup => cleanup
  | .observe => return ()

end Lifecycle

end BatchShader.Lock
