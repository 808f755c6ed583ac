import BatchShader.Builtin.Geometric
import BatchShader.Builtin.Registry
import BatchShader.Builtin.TextureLookup

/-
  The builtin functions of the language.

  Each line is a declaration as in the language's listing, and what implements every signature it
  expands to. Where two lines expand to one call, as `min(float, float)` does, the first line wins.
-/

namespace BatchShader.Builtin

/-- A declaration and the implementation of its signatures. -/
abbrev CatalogueLine := String × (Signature → Implementation)

/-- A float function of one component. -/
def float1 (op : Binary32 → Binary32) : Signature → Implementation :=
  componentwise (r := .float) [.float] op

/-- A float function of two components. -/
def float2 (op : Binary32 → Binary32 → Binary32) : Signature → Implementation :=
  componentwise (r := .float) [.float, .float] op

/-- A float function of three components. -/
def float3 (op : Binary32 → Binary32 → Binary32 → Binary32) : Signature → Implementation :=
  componentwise (r := .float) [.float, .float, .float] op

/-- A comparison of two components. -/
def compare (k : Kind) (op : k.Elem → k.Elem → Bool) : Signature → Implementation :=
  componentwise (r := .bool) [k, k] op

def trigonometry : List CatalogueLine :=
  [("genType radians(genType)", float1 Binary32.radians),
    ("genType degrees(genType)", float1 Binary32.degrees),
    ("genType sin(genType)", float1 Binary32.sin),
    ("genType cos(genType)", float1 Binary32.cos),
    ("genType tan(genType)", float1 Binary32.tan),
    ("genType asin(genType)", float1 Binary32.asin),
    ("genType acos(genType)", float1 Binary32.acos),
    ("genType atan(genType, genType)", float2 Binary32.atan2),
    ("genType atan(genType)", float1 Binary32.atan)]

def exponentials : List CatalogueLine :=
  [("genType pow(genType, genType)", float2 Binary32.pow),
    ("genType exp(genType)", float1 Binary32.exp),
    ("genType log(genType)", float1 Binary32.log),
    ("genType exp2(genType)", float1 Binary32.exp2),
    ("genType log2(genType)", float1 Binary32.log2),
    ("genType sqrt(genType)", float1 Binary32.sqrt),
    ("genType inversesqrt(genType)", float1 Binary32.inversesqrt)]

def commonFunctions : List CatalogueLine :=
  [("genType abs(genType)", float1 Binary32.abs),
    ("genType sign(genType)", float1 Binary32.sign),
    ("genType floor(genType)", float1 Binary32.floor),
    ("genType ceil(genType)", float1 Binary32.ceil),
    ("genType fract(genType)", float1 Binary32.fract),
    ("genType mod(genType, float)", float2 Binary32.modulo),
    ("genType mod(genType, genType)", float2 Binary32.modulo),
    ("genType min(genType, genType)", float2 Binary32.min),
    ("genType min(genType, float)", float2 Binary32.min),
    ("genType max(genType, genType)", float2 Binary32.max),
    ("genType max(genType, float)", float2 Binary32.max),
    ("genType clamp(genType, genType, genType)", float3 Binary32.clamp),
    ("genType clamp(genType, float, float)", float3 Binary32.clamp),
    ("genType mix(genType, genType, genType)", float3 Binary32.mix),
    ("genType mix(genType, genType, float)", float3 Binary32.mix),
    ("genType step(genType, genType)", float2 Binary32.step),
    ("genType step(float, genType)", float2 Binary32.step),
    ("genType smoothstep(genType, genType, genType)", float3 Binary32.smoothstep),
    ("genType smoothstep(float, float, genType)", float3 Binary32.smoothstep)]

/-- `reflect` and `refract` can be found but not called. -/
def geometry : List CatalogueLine :=
  [("float length(genType)", length),
    ("float distance(genType, genType)", distance),
    ("float dot(genType, genType)", dot),
    ("vec3 cross(vec3, vec3)", cross),
    ("genType normalize(genType)", normalize),
    ("genType faceforward(genType, genType, genType)", faceforward),
    ("genType reflect(genType, genType)", fun _ => .missing),
    ("genType refract(genType, genType, float)", fun _ => .missing)]

def matrices : List CatalogueLine :=
  [("mat matrixCompMult(mat, mat)", float2 (· * ·))]

def relations : List CatalogueLine :=
  [("bvec lessThan(vec, vec)", compare .float Binary32.lt),
    ("bvec lessThan(ivec, ivec)", compare .int (· < · : Int32 → Int32 → Bool)),
    ("bvec lessThanEqual(vec, vec)", compare .float Binary32.le),
    ("bvec lessThanEqual(ivec, ivec)", compare .int (· ≤ · : Int32 → Int32 → Bool)),
    ("bvec greaterThan(vec, vec)", compare .float fun x y => Binary32.lt y x),
    ("bvec greaterThan(ivec, ivec)", compare .int (· > · : Int32 → Int32 → Bool)),
    ("bvec greaterThanEqual(vec, vec)", compare .float fun x y => Binary32.le y x),
    ("bvec greaterThanEqual(ivec, ivec)", compare .int (· ≥ · : Int32 → Int32 → Bool)),
    ("bvec equal(vec, vec)", compare .float (Kind.equal .float)),
    ("bvec equal(ivec, ivec)", compare .int (Kind.equal .int)),
    ("bvec equal(bvec, bvec)", compare .bool (Kind.equal .bool)),
    ("bvec notEqual(vec, vec)", compare .float fun x y => !Kind.equal .float x y),
    ("bvec notEqual(ivec, ivec)", compare .int fun x y => !Kind.equal .int x y),
    ("bvec notEqual(bvec, bvec)", compare .bool fun x y => !Kind.equal .bool x y),
    ("bool any(bvec)", reduce (k := .bool) (· || · : Bool → Bool → Bool)),
    ("bool all(bvec)", reduce (k := .bool) (· && · : Bool → Bool → Bool)),
    ("bvec not(bvec)", componentwise (r := .bool) [.bool] (! · : Bool → Bool))]

def textureLookups : List CatalogueLine :=
  [("vec4 texture2D(sampler2D, vec2)", textureLookup .flat),
    ("vec4 texture2D(sampler2D, vec2, float)", textureLookup .flat),
    ("vec4 texture2DProj(sampler2D, vec3)", textureLookup .projective),
    ("vec4 texture2DProj(sampler2D, vec3, float)", textureLookup .projective),
    ("vec4 texture2DProj(sampler2D, vec4)", textureLookup .projective),
    ("vec4 texture2DProj(sampler2D, vec4, float)", textureLookup .projective),
    ("vec4 texture2DLod(sampler2D, vec2, float)", textureLookup .flat),
    ("vec4 texture2DProjLod(sampler2D, vec3, float)", textureLookup .projective),
    ("vec4 texture2DProjLod(sampler2D, vec4, float)", textureLookup .projective),
    ("vec4 textureCube(samplerCube, vec3)", textureLookup .cube),
    ("vec4 textureCube(samplerCube, vec3, float)", textureLookup .cube),
    ("vec4 textureCubeLod(samplerCube, vec3, float)", textureLookup .cube)]

/-- All declarations, in the order in which they are registered. -/
def catalogue : List CatalogueLine :=
  trigonometry ++ exponentials ++ commonFunctions ++ geometry ++ matrices ++ relations ++
    textureLookups

/-- The registry of all builtins. -/
def standard : Outcome (Registry Implementation) := Registry.build catalogue

end BatchShader.Builtin
