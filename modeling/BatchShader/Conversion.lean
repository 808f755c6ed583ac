import BatchShader.Register
import BatchShader.Sweep

/-
  Conversion of components between kinds, and copies of whole lanes.
-/

namespace BatchShader

/-- The component of kind `dst` that a component of kind `src` converts to. Truth values become `0`
and `1`, floats lose their fraction, and whatever is not equal to zero is true. -/
def Kind.convert : (src dst : Kind) → src.Elem → dst.Elem
  | .float, .float, x => x
  | .int, .int, n => n
  | .bool, .bool, b => b
  | .int, .float, n => Binary32.ofInt32 n
  | .bool, .float, b => if b then Binary32.one else Binary32.zero
  | .float, .int, x => Binary32.toInt32 x
  | .bool, .int, b => if b then 1 else 0
  | .float, .bool, x => !Binary32.eq x Binary32.zero
  | .int, .bool, n => n != 0

theorem Kind.convert_self (k : Kind) (x : k.Elem) : k.convert k x = x := by cases k <;> rfl

/-- One, or true. -/
def Kind.one : (k : Kind) → k.Elem
  | .float => Binary32.one
  | .int => 1
  | .bool => true

namespace Sweep

/-- Converts a lane into another one on the live rows. -/
def convertLane (s : Sweep) (src dst : Lane) : Outcome Lane := do
  let column ← s.map1 src.column dst.column (src.kind.convert dst.kind)
  return ⟨dst.kind, column⟩

/-- Writes one, or true, on the live rows. -/
def fillOne (s : Sweep) (dst : Lane) : Outcome Lane := do
  let column ← s.map (fun _ => .ok dst.kind.one) dst.column
  return ⟨dst.kind, column⟩

/-- Converts `src` into lane `i` of a register. A register without that lane stays as it is. -/
def convertInto (s : Sweep) (src : Lane) (r : Register) (i : Nat) : Outcome Register :=
  match r.lanes[i]? with
  | some dst => return r.setLane i (← s.convertLane src dst)
  | none => .ok r

/-- Writes one, or true, into lane `i` of a register, if it has that lane. -/
def fillOneInto (s : Sweep) (r : Register) (i : Nat) : Outcome Register :=
  match r.lanes[i]? with
  | some dst => return r.setLane i (← s.fillOne dst)
  | none => .ok r

end Sweep

end BatchShader
