import BatchShader.Binary32

/-
  The types of shading values, and the kinds of their components.

  A type is a kind together with a shape: a single component, a vector, or a square matrix stored
  column by column. `void` has no components. A sampler is a handle that holds the number of a
  texture unit as its one integer component.
-/

namespace BatchShader

/-! ## Component kinds -/

/-- What one component of a value is. -/
inductive Kind
  | float
  | int
  | bool
deriving DecidableEq, Repr

namespace Kind

/-- The components of a kind. -/
abbrev Elem : Kind → Type
  | .float => Binary32
  | .int => Int32
  | .bool => Bool

instance : (k : Kind) → DecidableEq k.Elem
  | .float => inferInstanceAs (DecidableEq Binary32)
  | .int => inferInstanceAs (DecidableEq Int32)
  | .bool => inferInstanceAs (DecidableEq Bool)

/-- The component that every register starts with. -/
def zero : (k : Kind) → k.Elem
  | .float => Binary32.zero
  | .int => 0
  | .bool => false

instance (k : Kind) : Inhabited k.Elem := ⟨k.zero⟩

/-- Comparison for equality in a program: IEEE equality for floats. -/
def equal : (k : Kind) → k.Elem → k.Elem → Bool
  | .float, x, y => Binary32.eq x y
  | .int, x, y => x == y
  | .bool, x, y => x == y

/-- Equality of the stored bits, all NaNs counting as one. -/
def same : (k : Kind) → k.Elem → k.Elem → Bool
  | .float, x, y => Binary32.same x y
  | .int, x, y => x == y
  | .bool, x, y => x == y

theorem same_refl (k : Kind) (x : k.Elem) : k.same x x = true := by
  cases k
  · exact Binary32.same_refl x
  · exact beq_self_eq_true (α := Int32) x
  · exact beq_self_eq_true (α := Bool) x

def name : Kind → String
  | .float => "float"
  | .int => "int"
  | .bool => "bool"

def all : List Kind := [.float, .int, .bool]

end Kind

/-! ## Types -/

inductive ShaderType
  | void
  | float | vec2 | vec3 | vec4
  | int | ivec2 | ivec3 | ivec4
  | bool | bvec2 | bvec3 | bvec4
  | mat2 | mat3 | mat4
  | sampler2D | samplerCube
deriving DecidableEq, Repr

namespace ShaderType

def all : List ShaderType :=
  [void, float, vec2, vec3, vec4, int, ivec2, ivec3, ivec4, bool, bvec2, bvec3, bvec4,
    mat2, mat3, mat4, sampler2D, samplerCube]

theorem mem_all (t : ShaderType) : t ∈ all := by cases t <;> decide

/-- The kind of the components; `void` has none. -/
def kind? : ShaderType → Option Kind
  | void => none
  | float | vec2 | vec3 | vec4 | mat2 | mat3 | mat4 => some .float
  | int | ivec2 | ivec3 | ivec4 | sampler2D | samplerCube => some .int
  | bool | bvec2 | bvec3 | bvec4 => some .bool

/-- The number of rows and columns of a matrix; `0` for the other types. -/
def dimension : ShaderType → Nat
  | mat2 => 2
  | mat3 => 3
  | mat4 => 4
  | _ => 0

/-- The number of components. -/
def components : ShaderType → Nat
  | void => 0
  | float | int | bool | sampler2D | samplerCube => 1
  | vec2 | ivec2 | bvec2 => 2
  | vec3 | ivec3 | bvec3 => 3
  | vec4 | ivec4 | bvec4 | mat2 => 4
  | mat3 => 9
  | mat4 => 16

def isScalar (t : ShaderType) : Bool := t matches float | int | bool

def isVector (t : ShaderType) : Bool :=
  t matches vec2 | vec3 | vec4 | ivec2 | ivec3 | ivec4 | bvec2 | bvec3 | bvec4

def isMatrix (t : ShaderType) : Bool := t matches mat2 | mat3 | mat4

def isSampler (t : ShaderType) : Bool := t matches sampler2D | samplerCube

theorem components_of_isMatrix {t : ShaderType} (h : t.isMatrix = true) :
    t.components = t.dimension * t.dimension := by
  cases t <;> first | rfl | cases h

theorem components_of_isScalar {t : ShaderType} (h : t.isScalar = true) : t.components = 1 := by
  cases t <;> first | rfl | cases h

theorem kind?_eq_none {t : ShaderType} : t.kind? = none ↔ t = void := by cases t <;> simp [kind?]

/-- The type of `size` components of a kind: a scalar for one component, else a vector. -/
def vector? : Kind → Nat → Option ShaderType
  | .float, 1 => float
  | .float, 2 => vec2
  | .float, 3 => vec3
  | .float, 4 => vec4
  | .int, 1 => int
  | .int, 2 => ivec2
  | .int, 3 => ivec3
  | .int, 4 => ivec4
  | .bool, 1 => bool
  | .bool, 2 => bvec2
  | .bool, 3 => bvec3
  | .bool, 4 => bvec4
  | _, _ => none

def matrix? : Nat → Option ShaderType
  | 2 => mat2
  | 3 => mat3
  | 4 => mat4
  | _ => none

/-- The type of one component; samplers and `void` are not made of scalars. -/
def scalar? (t : ShaderType) : Option ShaderType :=
  if t.isSampler then none else t.kind?.bind (vector? · 1)

/-! ## Names -/

def name : ShaderType → String
  | void => "void"
  | float => "float"
  | vec2 => "vec2"
  | vec3 => "vec3"
  | vec4 => "vec4"
  | int => "int"
  | ivec2 => "ivec2"
  | ivec3 => "ivec3"
  | ivec4 => "ivec4"
  | bool => "bool"
  | bvec2 => "bvec2"
  | bvec3 => "bvec3"
  | bvec4 => "bvec4"
  | mat2 => "mat2"
  | mat3 => "mat3"
  | mat4 => "mat4"
  | sampler2D => "sampler2D"
  | samplerCube => "samplerCube"

instance : ToString ShaderType := ⟨name⟩

/-- The type with a given name. -/
def ofName? (s : String) : Option ShaderType := all.find? (·.name = s)

theorem ofName?_name (t : ShaderType) : ofName? t.name = some t := by cases t <;> decide

theorem name_of_ofName? {s : String} {t : ShaderType} (h : ofName? s = some t) : t.name = s := by
  simpa using List.find?_some h

end ShaderType

end BatchShader
