import BatchShader.Lock.System

/-
  A busy-waiting lock: one flag, set by an atomic exchange.

  A thread that finds the flag set reads it until it is clear and then tries again. Between `lock`
  and `unlock` each thread adds one to a counter.
-/

namespace BatchShader.Lock.Spinning

/-- Where a thread is in the code of the lock. -/
inductive Point
  /-- Without the lock. -/
  | outside
  /-- About to try the exchange. -/
  | trying
  /-- About to read the flag. -/
  | spinning
  /-- Between `lock` and `unlock`. -/
  | inside
  /-- About to clear the flag. -/
  | leaving
deriving DecidableEq, Repr

structure State where
  flag : Bool
  points : Array Point
  counter : Nat
deriving DecidableEq, Repr

namespace State

/-- Where a thread is; threads that do not exist are outside. -/
def point (s : State) (t : Nat) : Point := s.points.getD t .outside

/-- The state with one thread moved. -/
def move (s : State) (t : Nat) (p : Point) : State :=
  { s with points := s.points.setIfInBounds t p }

end State

/-- No thread in the lock's code. -/
def start (threads : Nat) : State := ⟨false, Array.replicate threads .outside, 0⟩

/-- The outcomes of the next step of a thread. The exchange may fail without a reason. -/
def next (t : Nat) (s : State) : List State :=
  if t < s.points.size then
    match s.point t with
    | .outside => [s.move t .trying]
    | .trying =>
      if s.flag then [s.move t .spinning]
      else [{ s with flag := true }.move t .inside, s.move t .spinning]
    | .spinning => if s.flag then [s] else [s.move t .trying]
    | .inside => [{ s with counter := s.counter + 1 }.move t .leaving]
    | .leaving => [{ s with flag := false }.move t .outside]
  else []

/-- A number of threads that lock and unlock for ever. -/
def system (threads : Nat) : System := ⟨State, start threads, next⟩

/-- The steps of locking and unlocking once, undisturbed. -/
def turn : Nat := 4

/-- The counter after each of some threads has locked and unlocked `rounds` times. -/
def count (threads rounds : Nat) : Nat :=
  ((system threads).takeTurns threads rounds turn (start threads)).counter

end BatchShader.Lock.Spinning
