import BatchShader.ShaderType

/-
  Signatures of builtin functions, and declarations that stand for several signatures.

  A declaration may use placeholders such as `genType` in place of types. All placeholders of one
  declaration grow together: `expand` gives one signature for each size they share.
-/

namespace BatchShader

/-! ## Signatures -/

/-- A builtin overload: result type, name, parameter types. -/
structure Signature where
  result : ShaderType
  name : String
  params : List ShaderType
deriving DecidableEq, Repr

namespace Signature

/-- A call without its result type, such as `pow(vec3, float)`. -/
def callText (name : String) (params : List ShaderType) : String :=
  name ++ "(" ++ ", ".intercalate (params.map ShaderType.name) ++ ")"

/-- A signature as it is declared, such as `vec3 reflect(vec3, vec3)`. -/
def text (s : Signature) : String := s.result.name ++ " " ++ callText s.name s.params

instance : ToString Signature := ⟨text⟩

end Signature

/-! ## Placeholder families -/

/-- A family of types with one member for each size. -/
inductive Family
  | genType
  | vec
  | ivec
  | bvec
  | mat
deriving DecidableEq, Repr

namespace Family

def all : List Family := [genType, vec, ivec, bvec, mat]

def name : Family → String
  | genType => "genType"
  | vec => "vec"
  | ivec => "ivec"
  | bvec => "bvec"
  | mat => "mat"

def ofName? (s : String) : Option Family := all.find? (·.name = s)

theorem ofName?_name (f : Family) : ofName? f.name = some f := by cases f <;> decide

theorem name_of_ofName? {s : String} {f : Family} (h : ofName? s = some f) : f.name = s := by
  simpa using List.find?_some h

/-- The type that stands for the family at a size. -/
def member? : Family → Nat → Option ShaderType
  | genType, n | vec, n => ShaderType.vector? .float n
  | ivec, n => ShaderType.vector? .int n
  | bvec, n => ShaderType.vector? .bool n
  | mat, n => ShaderType.matrix? n

/-- The sizes that a declaration led by the family takes. -/
def sizes : Family → List Nat
  | genType => [1, 2, 3, 4]
  | _ => [2, 3, 4]

end Family

/-! ## Declarations -/

/-- A type or a placeholder. -/
inductive Pattern
  | concrete (type : ShaderType)
  | placeholder (family : Family)
deriving DecidableEq, Repr

namespace Pattern

def family? : Pattern → Option Family
  | concrete _ => none
  | placeholder f => some f

/-- The type that stands here at a size. -/
def resolve? (n : Nat) : Pattern → Option ShaderType
  | concrete t => some t
  | placeholder f => f.member? n

def name : Pattern → String
  | concrete t => t.name
  | placeholder f => f.name

/-- The pattern that a word denotes; a family's name is no type's name. -/
def ofName? (s : String) : Option Pattern :=
  match Family.ofName? s with
  | some f => some (placeholder f)
  | none => (ShaderType.ofName? s).map concrete

theorem ofName?_name (p : Pattern) : ofName? p.name = some p := by
  cases p with
  | concrete t => cases t <;> decide
  | placeholder f => cases f <;> decide

theorem name_of_ofName? {s : String} {p : Pattern} (h : ofName? s = some p) : p.name = s := by
  unfold ofName? at h
  split at h
  · next f hf => cases h; exact Family.name_of_ofName? hf
  · obtain ⟨t, ht, rfl⟩ := Option.map_eq_some_iff.1 h
    exact ShaderType.name_of_ofName? ht

end Pattern

/-- A builtin declaration, possibly with placeholders. -/
structure Declaration where
  result : Pattern
  name : String
  params : List Pattern
deriving DecidableEq, Repr

namespace Declaration

/-- The placeholders, the result's first. -/
def families (d : Declaration) : List Family := (d.result :: d.params).filterMap Pattern.family?

/-- The signature at a size, if every placeholder has a member of that size. -/
def instantiate? (d : Declaration) (n : Nat) : Option Signature := do
  let result ← d.result.resolve? n
  let params ← d.params.mapM (Pattern.resolve? n)
  return ⟨result, d.name, params⟩

/-- The sizes to try: `genType` decides where it occurs, else the first placeholder does. -/
def sizes (d : Declaration) : List Nat :=
  if .genType ∈ d.families then Family.sizes .genType
  else
    match d.families with
    | f :: _ => f.sizes
    | [] => [0]

/-- The signatures a declaration stands for, in ascending size. Without placeholders it is itself
the one signature, whatever the size. -/
def expand (d : Declaration) : List Signature := d.sizes.filterMap d.instantiate?

end Declaration

end BatchShader
