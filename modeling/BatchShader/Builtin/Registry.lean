import BatchShader.Builtin.Overload
import BatchShader.Declaration.Grammar
import Std.Data.HashMap

/-
  The registry of overloads.

  A builder takes declarations in turn. Each is expanded, and a signature is registered unless an
  overload with its name and parameter types is there already; so of two declarations for one call
  the first wins. A builder that is finished gives a registry, which is only read: overloads are
  found by name and exact parameter types, and listed by name.
-/

namespace BatchShader

/-- Overloads ready to be called. -/
structure Registry (ι : Type) where
  /-- The overloads of each name in the order of their declaration. -/
  byName : Std.HashMap String (List (Overload ι))
  /-- The names in ascending order. -/
  names : List String
  /-- The number of overloads. -/
  size : Nat

/-- Gathers overloads while declarations are processed. -/
structure RegistryBuilder (ι : Type) where
  /-- The overloads of each name in the order of their declaration. -/
  byName : Std.HashMap String (List (Overload ι))

variable {ι : Type}

/-! ## Declaring -/

namespace RegistryBuilder

def empty : RegistryBuilder ι := ⟨∅⟩

/-- Registers an overload unless one with its name and parameter types is there. -/
def register (b : RegistryBuilder ι) (o : Overload ι) : RegistryBuilder ι :=
  let byName := b.byName.insertIfNew o.signature.name []
  let known := byName.getD o.signature.name []
  if known.any (·.signature.params == o.signature.params) then ⟨byName⟩
  else ⟨byName.insert o.signature.name (known ++ [o])⟩

/-- Registers the overloads that a declaration expands to. -/
def declare (text : String) (implement : Signature → ι) :
    EStateM Failure (RegistryBuilder ι) Unit :=
  match Declaration.parse text with
  | .error e => throw (.error (.declaration e))
  | .ok d => d.expand.forM fun s => modify (·.register ⟨s, implement s⟩)

/-- The overloads gathered so far, with an index of their names. -/
def finish (b : RegistryBuilder ι) : Registry ι where
  byName := b.byName
  names := b.byName.keys.mergeSort
  size := b.byName.fold (fun n _ overloads => n + overloads.length) 0

end RegistryBuilder

namespace Registry

def empty : Registry ι := RegistryBuilder.empty.finish

/-- The registry of a list of declarations. -/
def build (table : List (String × (Signature → ι))) : Outcome (Registry ι) :=
  match (table.forM fun line => RegistryBuilder.declare line.1 line.2).run .empty with
  | .ok _ b => .ok b.finish
  | .error e _ => .error e

/-! ## Lookup -/

/-- The overloads of a name in the order of their declaration. -/
def named (r : Registry ι) (name : String) : List (Overload ι) := r.byName.getD name []

/-- The overload with a name and exact parameter types. -/
def find? (r : Registry ι) (name : String) (params : List ShaderType) : Option (Overload ι) :=
  (r.named name).find? (·.signature.params == params)

/-- The overload with a name and exact parameter types, which has to exist. -/
def lookup (r : Registry ι) (name : String) (params : List ShaderType) : Outcome (Overload ι) :=
  match r.find? name params with
  | some o => .ok o
  | none => Outcome.fail (.unknownBuiltin name params)

/-! ## Listing -/

/-- All overloads, in no particular order. -/
def overloads (r : Registry ι) : List (Overload ι) :=
  r.byName.toList.flatMap fun (_, overloads) => overloads

/-- Every overload, by name and then in the order of declaration. -/
def toList (r : Registry ι) : List (Overload ι) := r.names.flatMap r.named

end Registry

end BatchShader
