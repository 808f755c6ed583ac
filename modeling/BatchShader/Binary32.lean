/-
  Single precision floating-point numbers, as the bits that store them.

  A number is its 32 IEEE 754 bits, so copying a NaN keeps its payload and two numbers are equal
  exactly when they are stored alike. Arithmetic is `Float32`'s: round to nearest even, every NaN
  result the one quiet NaN. Rounding to integers is done on the bits. Comparisons are IEEE's, under
  the names `lt`, `le` and `eq`; `same` asks for equal bits, counting all NaNs as one.
-/

namespace BatchShader

/-- A binary32 number, given by its bits. -/
structure Binary32 where
  bits : UInt32
deriving DecidableEq, Repr, Inhabited

namespace Binary32

/-- The number a `Float32` stands for. -/
def ofFloat32 (x : Float32) : Binary32 := ⟨x.toBits⟩

/-- The number to compute with. -/
def toFloat32 (x : Binary32) : Float32 := Float32.ofBits x.bits

/-! ## Constants -/

def zero : Binary32 := ⟨0⟩
def half : Binary32 := ⟨0x3f000000⟩
def one : Binary32 := ⟨0x3f800000⟩
def two : Binary32 := ⟨0x40000000⟩
def three : Binary32 := ⟨0x40400000⟩
def negOne : Binary32 := ⟨0xbf800000⟩
def nan : Binary32 := ⟨0x7fc00000⟩
def straightAngle : Binary32 := ⟨0x43340000⟩
def pi : Binary32 := ⟨0x40490fdb⟩

instance : Zero Binary32 := ⟨zero⟩

/-! ## The parts of the bit pattern -/

/-- The sign bit; it is also set on `-0` and on half of the NaNs. -/
def signBit (x : Binary32) : Bool := x.bits &&& 0x80000000 != 0

def exponentField (x : Binary32) : Nat := (x.bits >>> 23 &&& 0xff).toNat

def fractionField (x : Binary32) : Nat := (x.bits &&& 0x7fffff).toNat

def isNaN (x : Binary32) : Bool := x.exponentField == 255 && x.fractionField != 0

def isInfinite (x : Binary32) : Bool := x.exponentField == 255 && x.fractionField == 0

/-- Equal bits, or both NaN. -/
def same (x y : Binary32) : Bool := (x.isNaN && y.isNaN) || x.bits == y.bits

theorem same_refl (x : Binary32) : x.same x = true := by simp [same]

/-! ## Comparison -/

def lt (x y : Binary32) : Bool := x.toFloat32 < y.toFloat32

def le (x y : Binary32) : Bool := x.toFloat32 ≤ y.toFloat32

/-- IEEE equality: `0` equals `-0`, and a NaN equals nothing. -/
def eq (x y : Binary32) : Bool := x.toFloat32 == y.toFloat32

/-! ## Arithmetic -/

instance : Add Binary32 := ⟨fun x y => ofFloat32 (x.toFloat32 + y.toFloat32)⟩
instance : Sub Binary32 := ⟨fun x y => ofFloat32 (x.toFloat32 - y.toFloat32)⟩
instance : Mul Binary32 := ⟨fun x y => ofFloat32 (x.toFloat32 * y.toFloat32)⟩
instance : Div Binary32 := ⟨fun x y => ofFloat32 (x.toFloat32 / y.toFloat32)⟩

/-- Negation flips the sign bit, of a NaN too. -/
instance : Neg Binary32 := ⟨fun x => ⟨x.bits ^^^ 0x80000000⟩⟩

/-- The absolute value clears the sign bit, of a NaN too. -/
def abs (x : Binary32) : Binary32 := ⟨x.bits &&& 0x7fffffff⟩

def sqrt (x : Binary32) : Binary32 := ofFloat32 x.toFloat32.sqrt

/-! ## Rounding to integers -/

/-- The largest integer that is not above a number. From the exponent field 150 on all numbers are
integers, and below 127 their magnitude is less than one. In between, the bits of the fraction
that stand for parts of one are cleared; where a negative number has any, its magnitude first grows
past the next integer. -/
def floor (x : Binary32) : Binary32 :=
  if x.isNaN then nan
  else if 150 ≤ x.exponentField then x
  else if x.exponentField < 127 then
    if x.abs = zero then x else if x.signBit then negOne else zero
  else
    let parts : UInt32 := 0x7fffff >>> UInt32.ofNat (x.exponentField - 127)
    if x.bits &&& parts = 0 then x
    else ⟨(if x.signBit then x.bits + parts else x.bits) &&& ~~~parts⟩

/-- The smallest integer that is not below a number. -/
def ceil (x : Binary32) : Binary32 := if x.isNaN then nan else -(-x).floor

/-! ## Library functions -/

def sin (x : Binary32) : Binary32 := ofFloat32 x.toFloat32.sin
def cos (x : Binary32) : Binary32 := ofFloat32 x.toFloat32.cos
def tan (x : Binary32) : Binary32 := ofFloat32 x.toFloat32.tan
def asin (x : Binary32) : Binary32 := ofFloat32 x.toFloat32.asin
def acos (x : Binary32) : Binary32 := ofFloat32 x.toFloat32.acos
def atan (x : Binary32) : Binary32 := ofFloat32 x.toFloat32.atan
def exp (x : Binary32) : Binary32 := ofFloat32 x.toFloat32.exp
def exp2 (x : Binary32) : Binary32 := ofFloat32 x.toFloat32.exp2
def log (x : Binary32) : Binary32 := ofFloat32 x.toFloat32.log
def log2 (x : Binary32) : Binary32 := ofFloat32 x.toFloat32.log2

/-- The angle of the point `(x, y)`, the ordinate first. -/
def atan2 (y x : Binary32) : Binary32 := ofFloat32 (y.toFloat32.atan2 x.toFloat32)

def pow (x y : Binary32) : Binary32 := ofFloat32 (x.toFloat32.pow y.toFloat32)

/-! ## Integers -/

/-- The nearest number to an integer. -/
def ofInt32 (n : Int32) : Binary32 := ofFloat32 n.toFloat32

/-- The nearest number to a size. -/
def ofUInt64 (n : UInt64) : Binary32 := ofFloat32 n.toFloat32

/-- The integer part of the magnitude of a number. That of an infinity is past every word. -/
def magnitude (x : Binary32) : Nat :=
  if x.exponentField < 127 then 0
  else (x.fractionField + 0x800000) <<< (x.exponentField - 127) >>> 23

/-- The integer part within `-bound ..< bound`; a NaN gives `0` and numbers outside the range give
its nearer end. -/
def integerWithin (bound : Nat) (x : Binary32) : Int :=
  if x.isNaN then 0
  else if x.signBit then -(min bound x.magnitude : Nat)
  else (min (bound - 1) x.magnitude : Nat)

/-- The integer part as a 32-bit word. -/
def toInt32 (x : Binary32) : Int32 := Int32.ofInt (x.integerWithin 0x80000000)

/-- The integer part as a 64-bit word. -/
def toInt64 (x : Binary32) : Int64 := Int64.ofInt (x.integerWithin 0x8000000000000000)

end Binary32

end BatchShader
