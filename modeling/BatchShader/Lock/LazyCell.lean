import BatchShader.Lock.Platform
import BatchShader.Lock.System

/-
  A value that is built on first use and then shared.

  A thread that finds the cell empty makes sure that the native lock exists, takes it, looks into
  the cell again, and builds the value only if the cell is still empty. The lock itself is made on
  first use too: of the threads that try, one goes ahead while the others wait; if it fails, the
  next try starts afresh. To take or give back a native lock that is not there is a misuse. Each step
  below is atomic. The cell can be set once.

  Building may end differently each time: `build n` is how the attempt number `n` ends, from `0` on.
-/

namespace BatchShader.Lock.LazyCell

/-- Whether the native lock exists. -/
inductive Phase
  | absent
  /-- A thread is making it. -/
  | underway
  | present
deriving DecidableEq, Repr

/-- Where a thread is in a call. -/
inductive Point (α : Type)
  /-- In no call. -/
  | idle
  /-- About to look into the cell. -/
  | looking
  /-- About to exchange `absent` for `underway`. -/
  | exchanging
  /-- About to make the native lock. -/
  | creating
  /-- About to store the native lock. -/
  | storing
  /-- About to announce the native lock. -/
  | announcing
  /-- About to give up making the native lock. -/
  | abandoning (error : LockError)
  /-- About to take the native lock. -/
  | locking
  /-- About to look into the cell again. -/
  | rechecking
  /-- About to build and publish the value. -/
  | building
  /-- About to give the native lock back, with the result of the call. -/
  | unlocking (result : Outcome α)
  /-- After the call. -/
  | finished (result : Outcome α)
  /-- Stopped by a use of the native lock before it was announced. -/
  | misused

/-- What the threads share. -/
structure Shared (α : Type) where
  cell : Option α
  phase : Phase
  /-- Whether the storage of the native lock has been written. -/
  stored : Bool
  /-- Whether the native lock is taken. -/
  held : Bool
  /-- Which of the next attempts to make the native lock fail; later ones do not. -/
  failures : List Bool
  calls : List NativeCall
  /-- How many attempts to build the value there have been. -/
  attempts : Nat

/-- Nothing made and nothing published. -/
def Shared.start {α : Type} (failures : List Bool) : Shared α :=
  ⟨none, .absent, false, false, failures, [], 0⟩

/-- The atomic step of a thread from a point, or none if it has to wait. -/
def step {α : Type} (build : Nat → Outcome α) :
    Point α → Shared α → Option (Point α × Shared α)
  | .idle, s => some (.looking, s)
  | .looking, s =>
    match s.cell with
    | some v => some (.finished (.ok v), s)
    | none => some (.exchanging, s)
  | .exchanging, s =>
    match s.phase with
    | .absent => some (.creating, { s with phase := .underway })
    | .underway => none
    | .present => some (.locking, s)
  | .creating, s =>
    let failed := s.failures.headD false
    let s := { s with failures := s.failures.tail, calls := s.calls ++ [.create !failed] }
    some (if failed then .abandoning scriptedFailure else .storing, s)
  | .storing, s => some (.announcing, { s with stored := true })
  | .announcing, s => some (.locking, { s with phase := .present })
  | .abandoning e, s =>
    some (.finished (Outcome.fail (.lockInit e)), { s with phase := .absent })
  | .locking, s =>
    if s.phase ≠ .present then some (.misused, s)
    else if s.held then none
    else some (.rechecking, { s with held := true, calls := s.calls ++ [.lock] })
  | .rechecking, s =>
    match s.cell with
    | some v => some (.unlocking (.ok v), s)
    | none => some (.building, s)
  | .building, s =>
    let attempted := { s with attempts := s.attempts + 1 }
    match build s.attempts with
    | .ok v =>
      let kept := s.cell.getD v
      some (.unlocking (.ok kept), { attempted with cell := some kept })
    | .error e => some (.unlocking (.error e), attempted)
  | .unlocking r, s =>
    if s.phase ≠ .present then some (.misused, s)
    else some (.finished r, { s with held := false, calls := s.calls ++ [.unlock] })
  | .finished _, s => some (.idle, s)
  | .misused, _ => none

/-! ## One thread alone -/

/-- More steps than a call takes when no other thread interferes. -/
def callLength : Nat := 12

/-- Follows one thread for some steps, until its call is finished. -/
def follow {α : Type} (build : Nat → Outcome α) : Nat → Point α → Shared α → Outcome α × Shared α
  | _, .finished r, s => (r, s)
  | 0, _, s => (.error .outOfRange, s)
  | n + 1, p, s =>
    match step build p s with
    | some (p, s) => follow build n p s
    | none => (.error .outOfRange, s)

/-- A whole call by the only thread. -/
def getOrBuild {α : Type} (build : Outcome α) (s : Shared α) : Outcome α × Shared α :=
  follow (fun _ => build) callLength .looking s

/-! ## Many threads -/

structure State (α : Type) where
  points : Nat → Point α
  shared : Shared α

/-- Any number of threads, each making any number of calls. -/
def system {α : Type} (build : Nat → Outcome α) (failures : List Bool) : System where
  State := State α
  start := ⟨fun _ => .idle, .start failures⟩
  next t s :=
    match step build (s.points t) s.shared with
    | some (p, shared) => [⟨fun u => if u = t then p else s.points u, shared⟩]
    | none => []

end BatchShader.Lock.LazyCell
