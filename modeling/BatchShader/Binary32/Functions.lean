import BatchShader.Binary32

/-
  The scalar functions that the builtins apply to each component.

  Every function is written with the operations in the order in which they round; none may be
  reassociated. Runtime execution and compile-time evaluation both call these definitions.
-/

namespace BatchShader.Binary32

/-! ## Angles -/

/-- Degrees to radians: one multiplication by the rounded quotient `π / 180`. -/
def radians (degrees : Binary32) : Binary32 := degrees * (pi / straightAngle)

/-- Radians to degrees: one multiplication by the rounded quotient `180 / π`. -/
def degrees (radians : Binary32) : Binary32 := radians * (straightAngle / pi)

/-! ## Common functions -/

def inversesqrt (x : Binary32) : Binary32 := one / x.sqrt

/-- `1`, `-1`, or the argument itself when it is a zero or a NaN. -/
def sign (x : Binary32) : Binary32 :=
  if lt zero x then one else if lt x zero then negOne else x

def fract (x : Binary32) : Binary32 := x - x.floor

/-- The remainder of floor division, `x - y * ⌊x / y⌋`. -/
def modulo (x y : Binary32) : Binary32 := x - y * (x / y).floor

/-- The smaller argument; `x` when the two are equal or not comparable. -/
def min (x y : Binary32) : Binary32 := if lt y x then y else x

/-- The larger argument; `x` when the two are equal or not comparable. -/
def max (x y : Binary32) : Binary32 := if lt x y then y else x

def clamp (x lo hi : Binary32) : Binary32 := min (max x lo) hi

/-- Linear interpolation from `x` to `y`. -/
def mix (x y a : Binary32) : Binary32 := x * (one - a) + y * a

def step (edge x : Binary32) : Binary32 := if lt x edge then zero else one

/-- Cubic interpolation between the two edges. -/
def smoothstep (lo hi x : Binary32) : Binary32 :=
  let t := clamp ((x - lo) / (hi - lo)) zero one
  t * t * (three - two * t)

/-! ## Steps of geometric sums -/

/-- One step of a dot product: a rounded product, then a rounded sum. -/
def dotStep (acc x y : Binary32) : Binary32 := acc + x * y

/-- One step of a squared distance. -/
def distanceStep (acc x y : Binary32) : Binary32 :=
  let d := x - y
  acc + d * d

/-- One component of a cross product. -/
def crossTerm (a b c d : Binary32) : Binary32 := a * b - c * d

/-- The component `n` of a normal, turned against a reference with the dot product `d`. -/
def faceToward (n d : Binary32) : Binary32 := if lt d zero then n else -n

end BatchShader.Binary32
