/-
  Wrapping of texel coordinates.

  A coordinate is a signed 64-bit word and a size an unsigned one. Each mode maps every coordinate
  into `0 ..< size`; a size of zero counts as one. Sizes are read as signed words, so that from
  `2 ^ 62` on a step may have no result (`index?`).
-/

namespace BatchShader

/-- What a coordinate outside the texture means, for one axis. -/
inductive Wrap
  /-- The texture is repeated. -/
  | tiled
  /-- The nearest edge. -/
  | clamped
  /-- The texture is repeated, every second time reflected. -/
  | mirrored
deriving DecidableEq, Repr

namespace Wrap

/-- The remainder that has the sign of no operand: it is never negative. -/
def euclideanRemainder (i n : Int64) : Int64 :=
  let r := i % n
  if r < 0 then r + n.abs else r

/-- The texel that a coordinate denotes. -/
def apply (w : Wrap) (i : Int64) (size : UInt64) : UInt64 :=
  let n := (if size = 0 then 1 else size).toInt64
  let index :=
    match w with
    | tiled => euclideanRemainder i n
    | clamped => if i < 0 then 0 else if n - 1 < i then n - 1 else i
    | mirrored =>
      let m := euclideanRemainder i (2 * n)
      if m < n then m else 2 * n - 1 - m
  index.toUInt64

/-- Whether a remainder exists: the divisor is not zero, and the quotient is a signed word. -/
def hasRemainder (i n : Int64) : Bool := n != 0 && !(i == Int64.minValue && n == -1)

/-- Whether each step of `apply` has a result: a remainder has to exist, and the bounds of a clamp
have to be in order. -/
def isDefined (w : Wrap) (i : Int64) (size : UInt64) : Bool :=
  let n := (if size = 0 then 1 else size).toInt64
  match w with
  | tiled => hasRemainder i n
  | clamped => 0 ≤ n - 1
  | mirrored => hasRemainder i (2 * n)

/-- The texel that a coordinate denotes, if each step has a result. -/
def index? (w : Wrap) (i : Int64) (size : UInt64) : Option UInt64 :=
  if w.isDefined i size then some (w.apply i size) else none

end Wrap

/-- How texels are combined into a sample. -/
inductive Filter
  | nearest
  | linear
deriving DecidableEq, Repr

/-- Sampling settings: a wrap mode for each axis, and a filter. -/
structure Sampler where
  wrapS : Wrap
  wrapT : Wrap
  filter : Filter
deriving DecidableEq, Repr

/-- Tiled on both axes, with the nearest texel. -/
instance : Inhabited Sampler := ⟨⟨.tiled, .tiled, .nearest⟩⟩

end BatchShader
