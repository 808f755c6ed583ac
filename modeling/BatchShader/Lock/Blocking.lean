import BatchShader.Lock.System

/-
  A blocking lock made of a flag and a condition variable.

  The flag says whether the lock is held; an inner lock guards it. `lock` waits while the flag is
  set, which gives the inner lock back and sleeps in one step; `unlock` clears the flag, gives the
  inner lock back, and only then wakes one sleeper. A sleeper may also wake without being woken.
  Between `lock` and `unlock` each thread adds one to a counter.
-/

namespace BatchShader.Lock.Blocking

/-- Where a thread is in the code of the lock. -/
inductive Point
  /-- In neither `lock` nor `unlock`, without the lock. -/
  | outside
  /-- In `lock`, about to take the inner lock. -/
  | entering
  /-- In `lock`, about to test the flag. -/
  | testing
  /-- In `lock`, having found the flag set, about to give the inner lock back and fall asleep. -/
  | waiting
  /-- In `lock`, asleep until woken. -/
  | asleep
  /-- In `lock`, about to set the flag. -/
  | setting
  /-- In `lock`, about to give the inner lock back. -/
  | finishing
  /-- Between `lock` and `unlock`. -/
  | inside
  /-- In `unlock`, about to take the inner lock. -/
  | leaving
  /-- In `unlock`, about to clear the flag. -/
  | clearing
  /-- In `unlock`, about to give the inner lock back. -/
  | releasing
  /-- In `unlock`, about to wake a sleeper. -/
  | notifying
deriving DecidableEq, Repr

structure State where
  /-- The thread that has the inner lock. -/
  inner : Option Nat
  flag : Bool
  points : Array Point
  counter : Nat
deriving DecidableEq, Repr

namespace State

/-- Where a thread is; threads that do not exist are outside. -/
def point (s : State) (t : Nat) : Point := s.points.getD t .outside

/-- The state with one thread moved. -/
def move (s : State) (t : Nat) (p : Point) : State :=
  { s with points := s.points.setIfInBounds t p }

/-- The threads that sleep. -/
def sleepers (s : State) : List Nat :=
  (List.range s.points.size).filter fun u => s.point u = .asleep

end State

/-- No thread in the lock's code. -/
def start (threads : Nat) : State := ⟨none, false, Array.replicate threads .outside, 0⟩

/-- The outcomes of the next step of a thread. -/
def next (t : Nat) (s : State) : List State :=
  if t < s.points.size then
    match s.point t with
    | .outside => [s.move t .entering]
    | .entering => if s.inner.isNone then [{ s with inner := some t }.move t .testing] else []
    | .testing => if s.flag then [s.move t .waiting] else [s.move t .setting]
    | .waiting => [{ s with inner := none }.move t .asleep]
    | .asleep => [s.move t .entering]
    | .setting => [{ s with flag := true }.move t .finishing]
    | .finishing => [{ s with inner := none }.move t .inside]
    | .inside => [{ s with counter := s.counter + 1 }.move t .leaving]
    | .leaving => if s.inner.isNone then [{ s with inner := some t }.move t .clearing] else []
    | .clearing => [{ s with flag := false }.move t .releasing]
    | .releasing => [{ s with inner := none }.move t .notifying]
    | .notifying =>
      match s.sleepers with
      | [] => [s.move t .outside]
      | sleepers => sleepers.map fun u => (s.move u .entering).move t .outside
  else []

/-- A number of threads that lock and unlock for ever. -/
def system (threads : Nat) : System := ⟨State, start threads, next⟩

/-- The steps of locking and unlocking once, undisturbed. -/
def turn : Nat := 10

/-- The counter after each of some threads has locked and unlocked `rounds` times. -/
def count (threads rounds : Nat) : Nat :=
  ((system threads).takeTurns threads rounds turn (start threads)).counter

end BatchShader.Lock.Blocking
