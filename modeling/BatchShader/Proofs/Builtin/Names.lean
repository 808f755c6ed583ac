import BatchShader.Builtin.Catalogue
import BatchShader.Proofs.Builtin.Registry
import Mathlib.Data.List.Basic

/-
  The names in the catalogue.

  A lookup by name can only find what the lines of that name implement (`exists_line_of_mem`).
  `names` lists the name that each line of the catalogue declares. The texts are parsed here, in
  `names_eq`, once for all names: `linesOf` reads the lines of a name off the list.
-/

namespace BatchShader

/-- A declaration stands for signatures of its own name. -/
theorem Declaration.name_of_mem_expand {d : Declaration} {s : Signature} (h : s ∈ d.expand) :
    s.name = d.name := by
  obtain ⟨n, -, hn⟩ := List.mem_filterMap.1 h
  obtain ⟨result, -, hn⟩ := Option.bind_eq_some_iff.1 hn
  obtain ⟨params, -, hn⟩ := Option.bind_eq_some_iff.1 hn
  cases hn
  rfl

namespace Builtin

/-- The name that a line declares. -/
def declaredName (line : CatalogueLine) : Option String :=
  (Declaration.parse line.1).toOption.map Declaration.name

/-- The names that the lines of the catalogue declare. -/
def names : List String :=
  ["radians", "degrees", "sin", "cos", "tan", "asin", "acos", "atan", "atan", "pow", "exp",
    "log", "exp2", "log2", "sqrt", "inversesqrt", "abs", "sign", "floor", "ceil", "fract", "mod",
    "mod", "min", "min", "max", "max", "clamp", "clamp", "mix", "mix", "step", "step",
    "smoothstep", "smoothstep", "length", "distance", "dot", "cross", "normalize", "faceforward",
    "reflect", "refract", "matrixCompMult", "lessThan", "lessThan", "lessThanEqual",
    "lessThanEqual", "greaterThan", "greaterThan", "greaterThanEqual", "greaterThanEqual",
    "equal", "equal", "equal", "notEqual", "notEqual", "notEqual", "any", "all", "not",
    "texture2D", "texture2D", "texture2DProj", "texture2DProj", "texture2DProj", "texture2DProj",
    "texture2DLod", "texture2DProjLod", "texture2DProjLod", "textureCube", "textureCube",
    "textureCubeLod"]

theorem names_eq : catalogue.map declaredName = names.map some := by decide +kernel

/-- The lines of the catalogue that declare a name. -/
def linesOf (name : String) : List CatalogueLine :=
  ((catalogue.zip names).filter (·.2 = name)).map Prod.fst

theorem mem_linesOf {line : CatalogueLine} {name : String} (hline : line ∈ catalogue)
    (hname : declaredName line = some name) : line ∈ linesOf name := by
  have hmem : (line, some name) ∈ catalogue.zip (names.map some) := by
    rw [← names_eq, ← List.map_prod_left_eq_zip]
    exact List.mem_map.2 ⟨line, hline, by rw [hname]⟩
  rw [List.zip_map_right] at hmem
  obtain ⟨⟨line', name'⟩, hpair, h⟩ := List.mem_map.1 hmem
  cases h
  exact List.mem_map.2 ⟨_, List.mem_filter.2 ⟨hpair, decide_eq_true rfl⟩, rfl⟩

/-- What a registry finds under a name is declared in a line of that name. -/
theorem exists_line_of_mem {registry : Registry Implementation} (h : standard = .ok registry)
    {b : Builtin} (hb : b ∈ registry.overloads) :
    ∃ line ∈ linesOf b.signature.name, ∃ d, Declaration.parse line.1 = .ok d ∧
      b.signature ∈ d.expand ∧ b.body = line.2 b.signature := by
  obtain ⟨line, hline, d, hd, s, hs, rfl⟩ := Registry.mem_of_build h hb
  refine ⟨line, mem_linesOf hline ?_, d, hd, hs, rfl⟩
  rw [declaredName, hd, Declaration.name_of_mem_expand hs]
  rfl

theorem mem_catalogue_of_mem_linesOf {line : CatalogueLine} {name : String}
    (h : line ∈ linesOf name) : line ∈ catalogue := by
  obtain ⟨⟨line, name⟩, hpair, rfl⟩ := List.mem_map.1 h
  exact (List.of_mem_zip (List.mem_filter.1 hpair).1).1

/-- A call that a line of a name declares is found, in a line of that name. -/
theorem exists_lookup_of_line {registry : Registry Implementation} (h : standard = .ok registry)
    {name : String} {line : CatalogueLine} (hline : line ∈ linesOf name) {d : Declaration}
    (hd : Declaration.parse line.1 = .ok d) (hname : d.name = name) {s : Signature}
    (hs : s ∈ d.expand) :
    ∃ b, registry.lookup name s.params = .ok b ∧ b.signature.params = s.params ∧
      ∃ line ∈ linesOf name, ∃ d, Declaration.parse line.1 = .ok d ∧ b.signature ∈ d.expand ∧
        b.body = line.2 b.signature := by
  have hsname : s.name = name := (Declaration.name_of_mem_expand hs).trans hname
  obtain ⟨b, hlookup, hbname, hparams⟩ :=
    Registry.exists_lookup_of_build h (mem_catalogue_of_mem_linesOf hline) hd hs
  rw [hsname] at hlookup hbname
  exact ⟨b, hlookup, hparams, hbname ▸ exists_line_of_mem h (Registry.mem_of_lookup hlookup)⟩

example : linesOf "dot" = [("float dot(genType, genType)", dot)] := rfl

end Builtin

end BatchShader
