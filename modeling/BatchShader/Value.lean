import BatchShader.ShaderType
import BatchShader.Binary32.Text

/-
  Constants of a shading type.

  A scalar is one component with its kind, a list of components has one kind throughout, and a
  value is such a list that fits a type: its kind and its length are the type's. There is no value
  of type `void`.
-/

namespace BatchShader

/-! ## Scalars -/

/-- One component and its kind. -/
structure Scalar where
  kind : Kind
  elem : kind.Elem
deriving DecidableEq

namespace Scalar

def float (x : Binary32) : Scalar := ⟨.float, x⟩
def int (n : Int32) : Scalar := ⟨.int, n⟩
def bool (b : Bool) : Scalar := ⟨.bool, b⟩

/-- The component, if it is of kind `k`. -/
def as? (k : Kind) (s : Scalar) : Option k.Elem :=
  if h : s.kind = k then some (h ▸ s.elem) else none

theorem as?_self (s : Scalar) : s.as? s.kind = some s.elem := by simp [as?]

/-- Two scalars of one kind with the same stored bits, all NaNs counting as one. -/
def same (a b : Scalar) : Bool :=
  match b.as? a.kind with
  | some y => a.kind.same a.elem y
  | none => false

/-- Two scalars of one kind that compare equal in a program. -/
def equal (a b : Scalar) : Bool :=
  match b.as? a.kind with
  | some y => a.kind.equal a.elem y
  | none => false

/-- The text of a component: a float in its shortest decimal form. -/
def text : Scalar → String
  | ⟨.float, x⟩ => Binary32.text x
  | ⟨.int, n⟩ => toString (Int32.toInt n)
  | ⟨.bool, b⟩ => if b then "true" else "false"

end Scalar

/-! ## Components -/

/-- Components of one kind. -/
structure Components where
  kind : Kind
  elems : List kind.Elem
deriving DecidableEq

namespace Components

def length (c : Components) : Nat := c.elems.length

/-- The components, if they are of kind `k`. -/
def as? (k : Kind) (c : Components) : Option (List k.Elem) :=
  if h : c.kind = k then some (h ▸ c.elems) else none

theorem as?_self (c : Components) : c.as? c.kind = some c.elems := by simp [as?]

def get? (c : Components) (i : Nat) : Option Scalar := c.elems[i]?.map (⟨c.kind, ·⟩)

def replicate (n : Nat) (s : Scalar) : Components := ⟨s.kind, List.replicate n s.elem⟩

def toList (c : Components) : List Scalar := c.elems.map (⟨c.kind, ·⟩)

end Components

/-! ## Values -/

/-- A constant: components that fit a type. -/
structure Value where
  type : ShaderType
  data : Components
  kind_eq : type.kind? = some data.kind
  length_eq : data.length = type.components
deriving DecidableEq

namespace Value

/-- The value of a type with the given components, if they fit. -/
def new? (t : ShaderType) (c : Components) : Option Value :=
  if h : t.kind? = some c.kind ∧ c.length = t.components then some ⟨t, c, h.1, h.2⟩ else none

theorem new?_data (v : Value) : new? v.type v.data = some v := by
  simp [new?, v.kind_eq, v.length_eq]

theorem type_of_new? {t : ShaderType} {c : Components} {v : Value} (h : new? t c = some v) :
    v.type = t ∧ v.data = c := by
  simp only [new?] at h
  split at h
  · cases h; exact ⟨rfl, rfl⟩
  · cases h

/-- A handle of a sampler type for a texture unit. -/
def sampler? (t : ShaderType) (unit : Int32) : Option Value :=
  if t.isSampler then new? t ⟨.int, [unit]⟩ else none

/-- The value with all components `s`, if `s` is of the type's kind. -/
def splat? (t : ShaderType) (s : Scalar) : Option Value :=
  new? t (.replicate t.components s)

/-- The value with all components zero or false. -/
def zero? (t : ShaderType) : Option Value :=
  t.kind?.bind fun k => splat? t ⟨k, k.zero⟩

def components (v : Value) : Nat := v.data.length

def component? (v : Value) (i : Nat) : Option Scalar := v.data.get? i

/-- One type, and components with the same stored bits, all NaNs counting as one. -/
def same (a b : Value) : Bool :=
  a.type == b.type && a.components == b.components &&
    (a.data.toList.zip b.data.toList).all fun (x, y) => x.same y

/-- One type, and components that compare equal in a program. -/
def equal (a b : Value) : Bool :=
  a.type == b.type && a.components == b.components &&
    (a.data.toList.zip b.data.toList).all fun (x, y) => x.equal y

/-- The constructor expression of a value, such as `vec2(1.0, -0.5)`. -/
def text (v : Value) : String :=
  v.type.name ++ "(" ++ ", ".intercalate (v.data.toList.map Scalar.text) ++ ")"

end Value

end BatchShader
