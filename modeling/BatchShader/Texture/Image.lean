import BatchShader.Failure
import BatchShader.Texture.Wrap

/-
  Two-dimensional images of four floats per texel.

  Texels lie row by row. `new` accepts an image exactly when it has at least one texel, and as many
  as the product of the sides. Places are 64-bit words, and so is their arithmetic: the product of
  the sides may wrap, and then an image is accepted that has no texel for most of its places. A
  sample reads the nearest texel, or mixes the four around a point; a read past the last texel is
  out of range, and so is one without a wrapped coordinate.
-/

namespace BatchShader

/-- A texel, or a sampled colour. -/
structure Rgba where
  r : Binary32
  g : Binary32
  b : Binary32
  a : Binary32
deriving DecidableEq, Repr

namespace Rgba

instance : Inhabited Rgba := ⟨⟨.zero, .zero, .zero, .zero⟩⟩

/-- The four components, by number. -/
def component (c : Rgba) : Nat → Binary32
  | 0 => c.r
  | 1 => c.g
  | 2 => c.b
  | _ => c.a

def toList (c : Rgba) : List Binary32 := [c.r, c.g, c.b, c.a]

/-- `c + w * t`, component by component. -/
def addScaled (c : Rgba) (w : Binary32) (t : Rgba) : Rgba :=
  ⟨c.r + w * t.r, c.g + w * t.g, c.b + w * t.b, c.a + w * t.a⟩

end Rgba

structure Image where
  width : UInt64
  height : UInt64
  texels : Array Rgba
  sampler : Sampler
deriving DecidableEq

namespace Image

/-- The image with the given texels, row by row. -/
def new (width height : UInt64) (texels : Array Rgba) (sampler : Sampler) : Outcome Image :=
  let expected := width * height
  if expected = 0 ∨ texels.size ≠ expected.toNat then
    Outcome.fail (.textureSize width height expected (UInt64.ofNat texels.size))
  else .ok ⟨width, height, texels, sampler⟩

/-- The image with texel `f x y` at each place. -/
def ofFunction (width height : UInt64) (sampler : Sampler) (f : UInt64 → UInt64 → Rgba) :
    Outcome Image :=
  let row (y : Nat) : List Rgba :=
    (List.range width.toNat).map fun x => f (UInt64.ofNat x) (UInt64.ofNat y)
  new width height ((List.range height.toNat).flatMap row).toArray sampler

/-- The position of a place among the texels. -/
def position (i : Image) (x y : UInt64) : UInt64 := y * i.width + x

/-- The texel at a place, if there is one. -/
def texel? (i : Image) (x y : UInt64) : Option Rgba :=
  if i.width ≤ x then none else i.texels[(i.position x y).toNat]?

/-! ## Sampling -/

/-- The place that wrapped coordinates denote. -/
def place (i : Image) (s : Sampler) (x y : Int64) : UInt64 × UInt64 :=
  (s.wrapS.apply x i.width, s.wrapT.apply y i.height)

/-- The texel at wrapped coordinates. -/
def fetch (i : Image) (s : Sampler) (x y : Int64) : Outcome Rgba := do
  let px ← Outcome.require (s.wrapS.index? x i.width)
  let py ← Outcome.require (s.wrapT.index? y i.height)
  Outcome.require i.texels[(i.position px py).toNat]?

/-- The next coordinate; the last one has no other. -/
def nextCoordinate (x : Int64) : Int64 := if x = Int64.maxValue then x else x + 1

/-- The coordinates that a sample reads, each with its weight, in the order in which they are added
up. The nearest filter reads one texel as it is and has no weights. -/
def footprint (i : Image) (s t : Binary32) : List (Binary32 × Int64 × Int64) :=
  let u := s * Binary32.ofUInt64 i.width - .half
  let v := t * Binary32.ofUInt64 i.height - .half
  let fx := u - u.floor
  let fy := v - v.floor
  let x0 := u.floor.toInt64
  let y0 := v.floor.toInt64
  let x1 := nextCoordinate x0
  let y1 := nextCoordinate y0
  [((.one - fx) * (.one - fy), x0, y0), (fx * (.one - fy), x1, y0),
    ((.one - fx) * fy, x0, y1), (fx * fy, x1, y1)]

/-- The colour at a point of the unit square, under given settings. -/
def sampleWith (i : Image) (sampler : Sampler) (s t : Binary32) : Outcome Rgba :=
  match sampler.filter with
  | .nearest =>
    i.fetch sampler (s * Binary32.ofUInt64 i.width).floor.toInt64
      (t * Binary32.ofUInt64 i.height).floor.toInt64
  | .linear =>
    (i.footprint s t).foldlM
      (fun acc (w, x, y) => do return acc.addScaled w (← i.fetch sampler x y)) default

/-- The colour at a point of the unit square. -/
def sample (i : Image) (s t : Binary32) : Outcome Rgba := i.sampleWith i.sampler s t

end Image

end BatchShader
