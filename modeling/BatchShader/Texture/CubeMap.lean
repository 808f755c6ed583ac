import BatchShader.Texture.Image

/-
  Cube maps: six square images of one size, addressed by a direction.

  The component of largest magnitude chooses the face, ties going to x before y before z; the other
  two, divided by it, give the point on the face. Faces are clamped at their edges, whatever their
  own settings say; the filter is the face's.
-/

namespace BatchShader

/-- The faces of a cube, in the order in which they are stored. -/
inductive CubeFace
  | positiveX | negativeX
  | positiveY | negativeY
  | positiveZ | negativeZ
deriving DecidableEq, Repr

namespace CubeFace

def index : CubeFace → Fin 6
  | positiveX => 0
  | negativeX => 1
  | positiveY => 2
  | negativeY => 3
  | positiveZ => 4
  | negativeZ => 5

def name : CubeFace → String
  | positiveX => "PositiveX"
  | negativeX => "NegativeX"
  | positiveY => "PositiveY"
  | negativeY => "NegativeY"
  | positiveZ => "PositiveZ"
  | negativeZ => "NegativeZ"

/-- The face that a direction meets, and the point of the unit square on it. -/
def select (x y z : Binary32) : CubeFace × Binary32 × Binary32 :=
  let (face, sc, tc, major) :=
    if Binary32.le y.abs x.abs && Binary32.le z.abs x.abs then
      if Binary32.le .zero x then (positiveX, -z, -y, x.abs) else (negativeX, z, -y, x.abs)
    else if Binary32.le z.abs y.abs then
      if Binary32.le .zero y then (positiveY, x, z, y.abs) else (negativeY, x, -z, y.abs)
    else if Binary32.le .zero z then (positiveZ, x, -y, z.abs)
    else (negativeZ, -x, -y, z.abs)
  (face, (sc / major + .one) * .half, (tc / major + .one) * .half)

end CubeFace

structure CubeMap where
  faces : Vector Image 6

namespace CubeMap

/-- The length of a side. -/
def size (c : CubeMap) : UInt64 := c.faces[0].width

def face (c : CubeMap) (f : CubeFace) : Image := c.faces[f.index]

/-- Refuses the first face that is not a square with the sides of the first one. -/
def new (faces : Vector Image 6) : Outcome CubeMap :=
  let size := faces[0].width
  match faces.toList.find? fun i => i.width != size || i.height != size with
  | some i => Outcome.fail (.textureSize i.width i.height (size * size) (i.width * i.height))
  | none => .ok ⟨faces⟩

/-- The colour in a direction, which may have any length. -/
def sample (c : CubeMap) (x y z : Binary32) : Outcome Rgba :=
  let (f, s, t) := CubeFace.select x y z
  let image := c.face f
  image.sampleWith ⟨.clamped, .clamped, image.sampler.filter⟩ s t

end CubeMap

end BatchShader
