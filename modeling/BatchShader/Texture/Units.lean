import BatchShader.Texture.CubeMap

/-
  Texture units: the textures that samplers refer to by number.
-/

namespace BatchShader

/-- A texture of either form. -/
inductive Texture
  | flat (image : Image)
  | cube (map : CubeMap)

/-- The textures bound to units, at most one to each. -/
structure TextureUnits where
  bound : List (Int32 × Texture)

namespace TextureUnits

def empty : TextureUnits := ⟨[]⟩

instance : Inhabited TextureUnits := ⟨empty⟩

/-- The texture bound to a unit. -/
def get? (u : TextureUnits) (unit : Int32) : Option Texture := u.bound.lookup unit

def unbind (u : TextureUnits) (unit : Int32) : TextureUnits :=
  ⟨u.bound.filter fun (other, _) => other != unit⟩

/-- Binds a texture to a unit in place of what was there. -/
def bind (u : TextureUnits) (unit : Int32) (t : Texture) : TextureUnits :=
  ⟨(unit, t) :: (u.unbind unit).bound⟩

def isBound (u : TextureUnits) (unit : Int32) : Bool := (u.get? unit).isSome

/-- How many units have a texture. -/
def count (u : TextureUnits) : Nat := u.bound.length

/-- The image bound to a unit. -/
def image (u : TextureUnits) (unit : Int32) : Outcome Image :=
  match u.get? unit with
  | some (.flat i) => .ok i
  | _ => Outcome.fail (.textureUnit unit .sampler2D)

/-- The cube map bound to a unit. -/
def cubeMap (u : TextureUnits) (unit : Int32) : Outcome CubeMap :=
  match u.get? unit with
  | some (.cube c) => .ok c
  | _ => Outcome.fail (.textureUnit unit .samplerCube)

/-! ## The view -/

theorem get?_unbind (u : TextureUnits) (unit other : Int32) :
    (u.unbind unit).get? other = if other = unit then none else u.get? other := by
  unfold unbind get?
  dsimp only
  induction u.bound with
  | nil => simp
  | cons e l ih =>
    obtain ⟨k, t⟩ := e
    by_cases hk : k = unit
    · rw [List.filter_cons_of_neg (by simp [hk]), ih]
      by_cases h : other = unit
      · simp [h]
      · simp [List.lookup_cons, h, hk, beq_false_of_ne h]
    · rw [List.filter_cons_of_pos (by simp [hk]), List.lookup_cons, List.lookup_cons, ih]
      by_cases h : other = k
      · simp [h, hk]
      · simp [beq_false_of_ne h]

theorem get?_bind (u : TextureUnits) (unit other : Int32) (t : Texture) :
    (u.bind unit t).get? other = if other = unit then some t else u.get? other := by
  have h := u.get?_unbind unit other
  by_cases ho : other = unit
  · simp [bind, get?, ho]
  · simpa [bind, get?, List.lookup_cons, ho, beq_false_of_ne ho] using h

end TextureUnits

end BatchShader
