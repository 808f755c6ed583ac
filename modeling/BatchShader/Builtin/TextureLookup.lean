import BatchShader.Builtin.Componentwise

/-
  Texture lookups. They need the bound textures and so have no constant form.

  Each live row has its own unit. All live rows are resolved before anything is written, in
  ascending order, so a failure names the unit of the first row that has no texture. A bias or a
  level of detail is accepted and has no effect: textures have a single level.
-/

namespace BatchShader.Builtin

/-- How the coordinates address a texture. -/
inductive Addressing
  /-- A point of an image. -/
  | flat
  /-- A point of an image, divided by the last coordinate. -/
  | projective
  /-- A direction into a cube map. -/
  | cube
deriving DecidableEq, Repr

namespace Addressing

/-- The sampler type that the lookup needs. -/
def samplerType : Addressing → ShaderType
  | flat | projective => .sampler2D
  | cube => .samplerCube

end Addressing

/-- The texture of each row: the one bound to its unit if it is live, else the one of the first
live row. -/
def resolve {α : Type} (chain : LiveChain) (first : Nat) (units : Array Int32)
    (find : Int32 → Outcome α) : Outcome (Array α) := do
  let texture ← find (← rowOf units first)
  chain.visited.foldlM
    (fun bound row => do return bound.setIfInBounds row (← find (← rowOf units row)))
    (Array.replicate chain.rows texture)

/-- The colour of each live row. -/
def sampleRows (how : Addressing) (inv : Invocation) (textures : TextureUnits) (first : Nat)
    (units : Array Int32) (coords : Register) : Outcome (Array Rgba) := do
  let blank := Array.replicate inv.chain.rows default
  let x ← coords.lane .float 0
  let y ← coords.lane .float 1
  match how with
  | .flat =>
    let bound ← resolve inv.chain first units textures.image
    inv.map (fun r => do (← rowOf bound r).sample (← rowOf x r) (← rowOf y r)) blank
  | .projective =>
    let bound ← resolve inv.chain first units textures.image
    let q ← coords.lane .float (coords.type.components - 1)
    inv.map
      (fun r => do
        let d ← rowOf q r
        (← rowOf bound r).sample ((← rowOf x r) / d) ((← rowOf y r) / d))
      blank
  | .cube =>
    let bound ← resolve inv.chain first units textures.cubeMap
    let z ← coords.lane .float 2
    inv.map (fun r => do (← rowOf bound r).sample (← rowOf x r) (← rowOf y r) (← rowOf z r)) blank

/-- Writes the four components of the colours. -/
def writeColours (inv : Invocation) (colours : Array Rgba) : Register.Writer Unit :=
  (List.range 4).forM fun i =>
    Register.modify .float i fun out => inv.map1 colours out (·.component i)

/-- Looks up one colour for each live row. Without live rows nothing can be missing. -/
def lookUp (how : Addressing) (inv : Invocation) (sampler coords : Register) :
    Register.Writer Unit :=
  match inv.chain.visited with
  | [] => return ()
  | first :: _ => do
    let units ← ofExcept (sampler.lane .int 0)
    match inv.textures with
    | none =>
      let unit ← ofExcept (rowOf units first)
      throw (.error (.textureUnit unit how.samplerType))
    | some textures =>
      writeColours inv (← ofExcept (sampleRows how inv textures first units coords))

/-- A texture lookup from a sampler, coordinates, and possibly a bias or a level of detail. -/
def textureLookup (how : Addressing) (_ : Signature) : Implementation :=
  .runtimeOnly fun inv args =>
    match args with
    | [sampler, coords] | [sampler, coords, _] => lookUp how inv sampler coords
    | _ => throw (wrongArity 2 args.length)

end BatchShader.Builtin
