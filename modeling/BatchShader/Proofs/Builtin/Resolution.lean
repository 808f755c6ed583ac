import BatchShader.Proofs.Builtin.TextureLookup
import BatchShader.Proofs.Texture.Sampling

/-
  Texture lookups that succeed, and the ones that fail.

  A lookup resolves the textures of all live rows before it writes anything. If a live row's unit
  has no texture of the sampler's kind, the first such row is the reason for the failure
  (`resolve_eq_error`, `lookUp_eq_error`). Else there is nothing to report any more
  (`lookUp_of_supplied`): what is left is one sweep of samples (`exists_sampleRows_eq_map`), and if
  each live row has one, the lookup succeeds (`exists_lookUp`).
-/

namespace BatchShader

/-! ## Rows of results -/

theorem Rgba.component_of_getElem? {c : Rgba} {i : Nat} {e : Binary32}
    (h : c.toList[i]? = some e) : c.component i = e := by
  match i, h with
  | 0, h | 1, h | 2, h | 3, h => exact Option.some.inj h

theorem Register.Holds.rowOf {x : Register} {k : Kind} {r i : Nat} {es : List k.Elem}
    (h : x.Holds k r es) {column : Array k.Elem} (hx : x.lane k i = .ok column) {e : k.Elem}
    (he : es[i]? = some e) : rowOf column r = .ok e := by
  rw [← Register.readRow_of_lane hx, h.readRow he]

namespace Builtin

/-! ## Resolving units -/

section Resolve

variable {α : Type} {chain : LiveChain} {first : Nat} {rest : List Nat} {units : Array Int32}
  {find : Int32 → Outcome α}

/-- The texture of a row, if its unit has one. -/
def textureOf (units : Array Int32) (find : Int32 → Outcome α) (r : Nat) : Outcome α := do
  find (← rowOf units r)

/-- Notes the texture of a row. -/
def noteTexture (units : Array Int32) (find : Int32 → Outcome α) (bound : Array α) (r : Nat) :
    Outcome (Array α) := do
  return bound.setIfInBounds r (← textureOf units find r)

theorem resolve_eq (chain : LiveChain) (first : Nat) (units : Array Int32)
    (find : Int32 → Outcome α) :
    resolve chain first units find = (do
      let texture ← textureOf units find first
      chain.visited.foldlM (noteTexture units find) (Array.replicate chain.rows texture)) := by
  unfold resolve noteTexture textureOf
  simp only [bind_assoc]

theorem exists_noteTextures {rows : List Nat}
    (h : ∀ r ∈ rows, ∃ texture, textureOf units find r = .ok texture) (bound : Array α) :
    ∃ bound', rows.foldlM (noteTexture units find) bound = .ok bound' := by
  induction rows generalizing bound with
  | nil => exact ⟨bound, rfl⟩
  | cons r rows ih =>
    rw [List.forall_mem_cons] at h
    obtain ⟨texture, htexture⟩ := h.1
    obtain ⟨bound', hbound'⟩ := ih h.2 (bound.setIfInBounds r texture)
    refine ⟨bound', ?_⟩
    rw [List.foldlM_cons, noteTexture, htexture]
    exact hbound'

/-- If each live row has a texture, all are resolved. -/
theorem exists_resolve (hv : chain.visited = first :: rest)
    (h : ∀ r ∈ chain.visited, ∃ texture, textureOf units find r = .ok texture) :
    ∃ bound, resolve chain first units find = .ok bound := by
  obtain ⟨texture, htexture⟩ := h first (by rw [hv]; exact List.mem_cons_self)
  rw [resolve_eq, htexture]
  exact exists_noteTextures h _

/-- Otherwise the first live row that has none is the reason for the failure. -/
theorem resolve_eq_error (hv : chain.visited = first :: rest) {r : Nat} (hr : r ∈ chain.visited)
    {f : Failure} (hf : textureOf units find r = .error f)
    (hbefore : ∀ q ∈ chain.visited, q < r → ∃ texture, textureOf units find q = .ok texture) :
    resolve chain first units find = .error f := by
  have hsorted := chain.visited_pairwise
  rw [resolve_eq]
  by_cases hrfirst : r = first
  · rw [← hrfirst, hf]
    rfl
  · have hfirst : first < r := by
      rw [hv] at hr hsorted
      exact (List.pairwise_cons.1 hsorted).1 r ((List.mem_cons.1 hr).resolve_left hrfirst)
    obtain ⟨texture, htexture⟩ := hbefore first (by rw [hv]; exact List.mem_cons_self) hfirst
    -- the rows before `r` have their textures, then `r` fails
    obtain ⟨before, after, hsplit⟩ := List.append_of_mem hr
    have hfound : ∀ q ∈ before, ∃ texture, textureOf units find q = .ok texture := fun q hq => by
      rw [hsplit, List.pairwise_append] at hsorted
      refine hbefore q ?_ (hsorted.2.2 q hq r List.mem_cons_self)
      rw [hsplit]
      exact List.mem_append_left _ hq
    obtain ⟨bound, hbound⟩ := exists_noteTextures hfound (Array.replicate chain.rows texture)
    rw [htexture, Outcome.ok_bind, hsplit, List.foldlM_append, hbound, Outcome.ok_bind,
      List.foldlM_cons, noteTexture, hf]
    rfl

/-- The same for units: the first live row whose unit has no texture decides. -/
theorem resolve_missing {P : Int32 → Prop} (hv : chain.visited = first :: rest) {r : Nat}
    (hr : r ∈ chain.visited) {unit : Int32} (hunit : units[r]? = some unit) {f : Failure}
    (hf : find unit = .error f) (hfind : ∀ unit, P unit → ∃ texture, find unit = .ok texture)
    (hbefore : ∀ q ∈ chain.visited, q < r → ∃ unit, units[q]? = some unit ∧ P unit) :
    resolve chain first units find = .error f := by
  refine resolve_eq_error hv hr ?_ fun q hq hlt => ?_
  · rw [textureOf, Sweep.rowOf_eq_ok.2 hunit]
    exact hf
  · obtain ⟨unit', hunit', hP⟩ := hbefore q hq hlt
    obtain ⟨texture, htexture⟩ := hfind unit' hP
    exact ⟨texture, Outcome.bind_eq_ok.2 ⟨unit', Sweep.rowOf_eq_ok.2 hunit', htexture⟩⟩

end Resolve

/-! ## Textures of the right kind -/

section Textures

variable {units : TextureUnits} {unit : Int32}

/-- The unit has a texture that a sampler of the type can look up. -/
def HasTexture (units : TextureUnits) (t : ShaderType) (unit : Int32) : Prop :=
  ∃ texture, units.get? unit = some texture ∧ texture.samplerType = t

theorem image_eq_ok {i : Image} : units.image unit = .ok i ↔ units.get? unit = some (.flat i) := by
  unfold TextureUnits.image
  split
  · next i' h => rw [h, Except.ok.injEq, Option.some.injEq, Texture.flat.injEq]
  · next h => exact ⟨fun e => (nomatch e), fun e => absurd e (h i)⟩

theorem cubeMap_eq_ok {c : CubeMap} :
    units.cubeMap unit = .ok c ↔ units.get? unit = some (.cube c) := by
  unfold TextureUnits.cubeMap
  split
  · next c' h => rw [h, Except.ok.injEq, Option.some.injEq, Texture.cube.injEq]
  · next h => exact ⟨fun e => (nomatch e), fun e => absurd e (h c)⟩

theorem exists_image (h : HasTexture units .sampler2D unit) : ∃ i, units.image unit = .ok i := by
  obtain ⟨texture, hget, htype⟩ := h
  cases texture with
  | flat i => exact ⟨i, image_eq_ok.2 hget⟩
  | cube c => cases htype

theorem exists_cubeMap (h : HasTexture units .samplerCube unit) :
    ∃ c, units.cubeMap unit = .ok c := by
  obtain ⟨texture, hget, htype⟩ := h
  cases texture with
  | flat i => cases htype
  | cube c => exact ⟨c, cubeMap_eq_ok.2 hget⟩

theorem image_eq_error (h : ¬HasTexture units .sampler2D unit) :
    units.image unit = .error (.error (.textureUnit unit .sampler2D)) := by
  unfold TextureUnits.image
  split
  · next i hget => exact absurd ⟨.flat i, hget, rfl⟩ h
  · rfl

theorem cubeMap_eq_error (h : ¬HasTexture units .samplerCube unit) :
    units.cubeMap unit = .error (.error (.textureUnit unit .samplerCube)) := by
  unfold TextureUnits.cubeMap
  split
  · next c hget => exact absurd ⟨.cube c, hget, rfl⟩ h
  · rfl

end Textures

/-! ## Sampling -/

namespace Addressing

/-- The sample of a texture at the coordinates of a row. A projective point is divided by the last
coordinate. -/
def sample : Addressing → Texture → List Binary32 → Outcome Rgba
  | flat, .flat image, s :: t :: _ => image.sample s t
  | projective, .flat image, s :: t :: rest =>
    image.sample (s / rest.getLastD t) (t / rest.getLastD t)
  | cube, .cube map, x :: y :: z :: _ => map.sample x y z
  | _, _, _ => .error .outOfRange

theorem quiet_sample (how : Addressing) (texture : Texture) (es : List Binary32) :
    (how.sample texture es).Quiet := by
  unfold sample
  split
  · exact Image.quiet_sampleWith _ _ _ _
  · exact Image.quiet_sampleWith _ _ _ _
  · exact Image.quiet_sampleWith _ _ _ _
  · exact Outcome.quiet_outOfRange

/-- A texture with a texel for each place has a sample at all coordinates. -/
theorem exists_sample {how : Addressing} {texture : Texture} {es : List Binary32}
    (hfull : texture.Full) (htype : texture.samplerType = how.samplerType)
    (hlen : how.coordinates ≤ es.length) : ∃ c, how.sample texture es = .ok c := by
  cases how with
  | flat =>
    cases texture with
    | cube map => cases htype
    | flat image =>
      match es, hlen with
      | s :: t :: _, _ => exact hfull.flat.exists_sampleWith ..
  | projective =>
    cases texture with
    | cube map => cases htype
    | flat image =>
      match es, hlen with
      | s :: t :: _, _ => exact hfull.flat.exists_sampleWith ..
  | cube =>
    cases texture with
    | flat image => cases htype
    | cube map =>
      match es, hlen with
      | x :: y :: z :: _, _ => exact (hfull.face _).exists_sampleWith ..

end Addressing

/-- A sampler, coordinates and a result that fit a lookup in a batch of `rows` rows. -/
structure Operands (how : Addressing) (rows : Nat) (sampler coords out : Register) : Prop where
  sampler_type : sampler.type = how.samplerType
  sampler_wellFormed : sampler.WellFormed
  sampler_rows : sampler.rows = rows
  coords_kind : coords.type.kind? = some .float
  coordinates_le : how.coordinates ≤ coords.type.components
  coords_wellFormed : coords.WellFormed
  coords_rows : coords.rows = rows
  out_type : out.type = .vec4
  out_wellFormed : out.WellFormed
  out_rows : out.rows = rows

section Sampling

variable {how : Addressing} {inv : Invocation} {sampler coords out : Register}

theorem Operands.exists_units (h : Operands how inv.chain.rows sampler coords out) :
    ∃ units, sampler.lane .int 0 = .ok units ∧ units.size = inv.chain.rows := by
  have hkind : sampler.type.kind? = some .int := by
    rw [h.sampler_type]
    cases how <;> rfl
  have hcomponents : 0 < sampler.type.components := by
    rw [h.sampler_type]
    cases how <;> decide
  obtain ⟨units, hunits, hsize⟩ := h.sampler_wellFormed.exists_lane hkind hcomponents
  exact ⟨units, hunits, hsize.trans h.sampler_rows⟩

theorem Operands.exists_coordinate (h : Operands how inv.chain.rows sampler coords out) {i : Nat}
    (hi : i < coords.type.components) :
    ∃ column, coords.lane .float i = .ok column ∧ column.size = inv.chain.rows := by
  obtain ⟨column, hcolumn, hsize⟩ := h.coords_wellFormed.exists_lane h.coords_kind hi
  exact ⟨column, hcolumn, hsize.trans h.coords_rows⟩

/-- The coordinates of a live row. -/
theorem Operands.exists_coordinates (h : Operands how inv.chain.rows sampler coords out) {r : Nat}
    (hr : r ∈ inv.chain.visited) :
    ∃ es, coords.Holds .float r es ∧ es.length = coords.type.components := by
  have hlt : r < coords.rows := h.coords_rows ▸ LiveChain.lt_rows_of_mem_visited hr
  exact h.coords_wellFormed.exists_holds h.coords_kind hlt

theorem Operands.two_le (h : Operands how inv.chain.rows sampler coords out) :
    2 ≤ coords.type.components := by
  refine Nat.le_trans ?_ h.coordinates_le
  cases how <;> decide

theorem exists_rowOf {α : Type} {column : Array α} {r : Nat} (h : column.size = inv.chain.rows)
    (hr : r ∈ inv.chain.visited) : ∃ x, rowOf column r = .ok x := by
  obtain ⟨x, hx⟩ := LiveChain.exists_getElem?_of_mem_visited h hr
  exact ⟨x, Sweep.rowOf_eq_ok.2 hx⟩

/-- Textures of all live rows, found and in order. -/
theorem exists_bound {α : Type} {first : Nat} {rest : List Nat} {units : Array Int32}
    {find : Int32 → Outcome α} {P : Int32 → Prop} (hv : inv.chain.visited = first :: rest)
    (hunits : ∀ r ∈ inv.chain.visited, ∃ unit, units[r]? = some unit ∧ P unit)
    (hfind : ∀ unit, P unit → ∃ texture, find unit = .ok texture) :
    ∃ bound, resolve inv.chain first units find = .ok bound ∧
      ∀ r ∈ inv.chain.visited, ∃ unit texture, units[r]? = some unit ∧ find unit = .ok texture ∧
        rowOf bound r = .ok texture := by
  have hfound : ∀ r ∈ inv.chain.visited, ∃ texture, textureOf units find r = .ok texture :=
    fun r hr => by
      obtain ⟨unit, hunit, hP⟩ := hunits r hr
      obtain ⟨texture, htexture⟩ := hfind unit hP
      exact ⟨texture, Outcome.bind_eq_ok.2 ⟨unit, Sweep.rowOf_eq_ok.2 hunit, htexture⟩⟩
  obtain ⟨bound, hbound⟩ := exists_resolve hv hfound
  refine ⟨bound, hbound, fun r hr => ?_⟩
  obtain ⟨unit, texture, hunit, htexture, hget⟩ := resolve_eq_ok hbound r hr
  exact ⟨unit, texture, hunit, htexture, Sweep.rowOf_eq_ok.2 hget⟩

/-- Once the textures are found, what is left is one sweep of samples. -/
theorem exists_sampleRows_eq_map (h : Operands how inv.chain.rows sampler coords out)
    {textures : TextureUnits} {first : Nat} {rest : List Nat}
    (hv : inv.chain.visited = first :: rest) {units : Array Int32}
    (hunits : ∀ r ∈ inv.chain.visited, ∃ unit, units[r]? = some unit ∧
      HasTexture textures how.samplerType unit) :
    ∃ f : Nat → Outcome Rgba,
      (∀ r ∈ inv.chain.visited, ∃ unit texture es, units[r]? = some unit ∧
        textures.get? unit = some texture ∧ coords.Holds .float r es ∧
        how.sample texture es = f r) ∧
      sampleRows how inv textures first units coords =
        inv.map f (Array.replicate inv.chain.rows default) := by
  have htwo := h.two_le
  have hle := h.coordinates_le
  obtain ⟨x, hx, -⟩ := h.exists_coordinate (i := 0) (by omega)
  obtain ⟨y, hy, -⟩ := h.exists_coordinate (i := 1) (by omega)
  unfold sampleRows
  rw [hx, Outcome.ok_bind, hy, Outcome.ok_bind]
  cases how with
  | flat =>
    obtain ⟨bound, hbound, htextures⟩ := exists_bound hv hunits fun _ => exists_image
    rw [hbound]
    refine ⟨_, fun r hr => ?_, rfl⟩
    obtain ⟨es, hes, hlen⟩ := h.exists_coordinates hr
    rw [← hlen] at hle
    obtain ⟨unit, i, hunit, hi, hget⟩ := htextures r hr
    refine ⟨unit, .flat i, es, hunit, image_eq_ok.1 hi, hes, ?_⟩
    match es, hle with
    | s :: t :: _, _ =>
      rw [hget, Outcome.ok_bind, hes.rowOf hx rfl, Outcome.ok_bind, hes.rowOf hy rfl]
      rfl
  | projective =>
    obtain ⟨bound, hbound, htextures⟩ := exists_bound hv hunits fun _ => exists_image
    obtain ⟨q, hq, -⟩ :=
      h.exists_coordinate (i := coords.type.components - 1) (by omega)
    dsimp only
    rw [hbound, Outcome.ok_bind, hq]
    refine ⟨_, fun r hr => ?_, rfl⟩
    obtain ⟨es, hes, hlen⟩ := h.exists_coordinates hr
    rw [← hlen] at hle hq
    obtain ⟨unit, i, hunit, hi, hget⟩ := htextures r hr
    refine ⟨unit, .flat i, es, hunit, image_eq_ok.1 hi, hes, ?_⟩
    match es, hle with
    | s :: t :: rest, _ =>
      have hlast : (s :: t :: rest)[(s :: t :: rest).length - 1]? = some (rest.getLastD t) := by
        rw [← List.getLast?_eq_getElem?, List.getLast?_cons_cons, List.getLast?_cons,
          List.getLastD_eq_getLast?]
      rw [hes.rowOf hq hlast, Outcome.ok_bind, hget, Outcome.ok_bind,
        hes.rowOf hx rfl, Outcome.ok_bind, hes.rowOf hy rfl]
      rfl
  | cube =>
    obtain ⟨bound, hbound, htextures⟩ := exists_bound hv hunits fun _ => exists_cubeMap
    obtain ⟨z, hz, -⟩ := h.exists_coordinate (i := 2) h.coordinates_le
    dsimp only
    rw [hbound, Outcome.ok_bind, hz]
    refine ⟨_, fun r hr => ?_, rfl⟩
    obtain ⟨es, hes, hlen⟩ := h.exists_coordinates hr
    rw [← hlen] at hle
    obtain ⟨unit, c, hunit, hc, hget⟩ := htextures r hr
    refine ⟨unit, .cube c, es, hunit, cubeMap_eq_ok.1 hc, hes, ?_⟩
    match es, hle with
    | s :: t :: p :: _, _ =>
      rw [hget, Outcome.ok_bind, hes.rowOf hx rfl, Outcome.ok_bind,
        hes.rowOf hy rfl, Outcome.ok_bind, hes.rowOf hz rfl]
      rfl

/-- Before that, the first live row without a texture is the reason for the failure. -/
theorem sampleRows_eq_error (h : Operands how inv.chain.rows sampler coords out)
    {textures : TextureUnits} {first : Nat} {rest : List Nat}
    (hv : inv.chain.visited = first :: rest) {units : Array Int32} {r : Nat}
    (hr : r ∈ inv.chain.visited) {unit : Int32} (hunit : units[r]? = some unit)
    (hmissing : ¬HasTexture textures how.samplerType unit)
    (hbefore : ∀ q ∈ inv.chain.visited, q < r → ∃ unit, units[q]? = some unit ∧
      HasTexture textures how.samplerType unit) :
    sampleRows how inv textures first units coords =
      .error (.error (.textureUnit unit how.samplerType)) := by
  obtain ⟨x, hx, -⟩ := h.exists_coordinate (i := 0) (by have := h.two_le; omega)
  obtain ⟨y, hy, -⟩ := h.exists_coordinate (i := 1) (by have := h.two_le; omega)
  unfold sampleRows
  rw [hx, Outcome.ok_bind, hy, Outcome.ok_bind]
  cases how with
  | flat =>
    rw [resolve_missing hv hr hunit (image_eq_error hmissing) (fun _ => exists_image) hbefore]
    rfl
  | projective =>
    dsimp only
    rw [resolve_missing hv hr hunit (image_eq_error hmissing) (fun _ => exists_image) hbefore]
    rfl
  | cube =>
    dsimp only
    rw [resolve_missing hv hr hunit (cubeMap_eq_error hmissing) (fun _ => exists_cubeMap) hbefore]
    rfl

end Sampling

/-! ## Lookups -/

/-- The unit that a sampler register names at a row. -/
def unitAt? (sampler : Register) (r : Nat) : Option Int32 := (sampler.readRow .int 0 r).toOption

/-- A unit of the invocation has a texture that a sampler of the type can look up. -/
def Bound (inv : Invocation) (t : ShaderType) (unit : Int32) : Prop :=
  ∃ textures, inv.textures = some textures ∧ HasTexture textures t unit

/-- The unit of a row has a texture of the sampler's kind. -/
def Supplied (inv : Invocation) (sampler : Register) (r : Nat) : Prop :=
  ∃ unit, unitAt? sampler r = some unit ∧ Bound inv sampler.type unit

/-- A live row whose unit has no texture of the sampler's kind. -/
def Missing (inv : Invocation) (sampler : Register) (r : Nat) : Prop :=
  r ∈ inv.chain.visited ∧ ∃ unit, unitAt? sampler r = some unit ∧ ¬Bound inv sampler.type unit

/-- The texture bound to the unit of a row. -/
def TextureAt (inv : Invocation) (sampler : Register) (r : Nat) (texture : Texture) : Prop :=
  ∃ textures unit, inv.textures = some textures ∧ unitAt? sampler r = some unit ∧
    textures.get? unit = some texture

/-- What a lookup does for a live row: it samples the texture bound to the unit of the row, at the
coordinates of the row. -/
def SampleAt (how : Addressing) (inv : Invocation) (sampler coords : Register) (r : Nat)
    (sample : Outcome Rgba) : Prop :=
  ∃ texture es, TextureAt inv sampler r texture ∧ coords.Holds .float r es ∧
    how.sample texture es = sample

/-- Row `r` of a register is the sample that a lookup takes for the row. -/
def Sampled (how : Addressing) (inv : Invocation) (sampler coords out : Register) (r : Nat) :
    Prop :=
  ∃ colour, SampleAt how inv sampler coords r (.ok colour) ∧ out.Holds .float r colour.toList

section Lookups

variable {how : Addressing} {inv : Invocation} {sampler coords out : Register}

/-- A row has one texture. -/
theorem TextureAt.unique {r : Nat} {x y : Texture} (h : TextureAt inv sampler r x)
    (h' : TextureAt inv sampler r y) : x = y := by
  obtain ⟨textures, unit, htextures, hunit, hx⟩ := h
  obtain ⟨textures', unit', htextures', hunit', hy⟩ := h'
  obtain rfl := Option.some.inj (htextures.symm.trans htextures')
  obtain rfl := Option.some.inj (hunit.symm.trans hunit')
  exact Option.some.inj (hx.symm.trans hy)

theorem TextureAt.full {r : Nat} {texture : Texture} (h : TextureAt inv sampler r texture)
    (hfull : ∀ textures, inv.textures = some textures → textures.Full) : texture.Full := by
  obtain ⟨textures, unit, htextures, -, htexture⟩ := h
  exact hfull textures htextures unit texture htexture

/-- A row has one sample. -/
theorem SampleAt.unique {r : Nat} {x y : Outcome Rgba} (h : SampleAt how inv sampler coords r x)
    (h' : SampleAt how inv sampler coords r y) : x = y := by
  obtain ⟨texture, es, htexture, hes, rfl⟩ := h
  obtain ⟨texture', es', htexture', hes', rfl⟩ := h'
  rw [htexture.unique htexture', hes.unique hes']

theorem SampleAt.quiet {r : Nat} {x : Outcome Rgba} (h : SampleAt how inv sampler coords r x) :
    x.Quiet := by
  obtain ⟨texture, es, -, -, rfl⟩ := h
  exact how.quiet_sample texture es

theorem unitAt?_of_lane {units : Array Int32} (h : sampler.lane .int 0 = .ok units) (r : Nat) :
    unitAt? sampler r = units[r]? := by
  rw [unitAt?, Register.readRow_of_lane h, rowOf]
  cases units[r]? <;> rfl

/-- Either the unit of each live row has a texture, or there is a first live row whose unit has
none. -/
theorem supplied_or_missing (h : Operands how inv.chain.rows sampler coords out) :
    (∀ r ∈ inv.chain.visited, Supplied inv sampler r) ∨
      ∃ r, Missing inv sampler r ∧ ∀ q ∈ inv.chain.visited, q < r → Supplied inv sampler q := by
  classical
  obtain ⟨units, hunits, hsize⟩ := h.exists_units
  have hsupplied : ∀ r ∈ inv.chain.visited, ¬Missing inv sampler r → Supplied inv sampler r := by
    intro r hr hno
    obtain ⟨unit, hunit⟩ := LiveChain.exists_getElem?_of_mem_visited hsize hr
    rw [← unitAt?_of_lane hunits] at hunit
    exact ⟨unit, hunit, by_contra fun hmissing => hno ⟨hr, unit, hunit, hmissing⟩⟩
  by_cases hmissing : ∃ r, Missing inv sampler r
  · refine .inr ⟨Nat.find hmissing, Nat.find_spec hmissing, fun q hq hlt => ?_⟩
    exact hsupplied q hq (Nat.find_min hmissing hlt)
  · exact .inl fun r hr => hsupplied r hr fun hr' => hmissing ⟨r, hr'⟩

/-- The unit of a supplied row, in the lane of units and the textures at hand. -/
theorem Supplied.exists_unit (h : Operands how inv.chain.rows sampler coords out)
    {units : Array Int32} (hunits : sampler.lane .int 0 = .ok units) {textures : TextureUnits}
    (htextures : inv.textures = some textures) {r : Nat} (hr : Supplied inv sampler r) :
    ∃ unit, units[r]? = some unit ∧ HasTexture textures how.samplerType unit := by
  obtain ⟨unit, hunit, textures', htextures', htexture⟩ := hr
  rw [unitAt?_of_lane hunits] at hunit
  obtain rfl : textures = textures' := Option.some.inj (htextures.symm.trans htextures')
  exact ⟨unit, hunit, h.sampler_type ▸ htexture⟩

/-- The four components of the colours are written one after the other, and none of them can
fail. -/
theorem exists_writeColours (hc : inv.chain.Closed) (htype : out.type = .vec4)
    (hout : out.WellFormed) (hrows : out.rows = inv.chain.rows) {colours : Array Rgba}
    (hcolours : colours.size = inv.chain.rows) :
    ∃ out', (writeColours inv colours).run out = .ok () out' ∧
      Register.Written inv.chain .float
        (fun i r _ => do return Rgba.component (← rowOf colours r) i) out out' := by
  have hkind : out.type.kind? = some .float := by
    rw [htype]
    rfl
  have hcomponents : out.type.components = 4 := by
    rw [htype]
    rfl
  obtain ⟨out', hrun, hwritten⟩ := Register.exists_forM_written (c := inv.chain)
    (fun i r _ => do return Rgba.component (← rowOf colours r) i)
    (fun i => Register.modify .float i fun column => inv.map1 colours column (·.component i))
    hout hkind fun i hi z old hold hsize => by
      obtain ⟨new, hnew, hwrote⟩ := Sweep.exists_wrote (s := inv.toSweep) hc
        (fun r _ => do return Rgba.component (← rowOf colours r) i) (hsize.trans hrows)
        fun r hr _ => by
          obtain ⟨c, hcolour⟩ := exists_rowOf hcolours hr
          exact ⟨_, Outcome.bind_eq_ok.2 ⟨c, hcolour, rfl⟩⟩
      exact ⟨new, Register.run_modify hold hnew, hwrote⟩
  rw [hcomponents] at hrun
  exact ⟨out', hrun, hwritten⟩

/-- If the units of all live rows have textures, the lookup is a sweep of their samples. -/
theorem exists_sweep (h : Operands how inv.chain.rows sampler coords out)
    (hsupplied : ∀ r ∈ inv.chain.visited, Supplied inv sampler r) {first : Nat} {rest : List Nat}
    (hv : inv.chain.visited = first :: rest) :
    ∃ units textures f, sampler.lane .int 0 = .ok units ∧ inv.textures = some textures ∧
      (∀ r ∈ inv.chain.visited, SampleAt how inv sampler coords r (f r)) ∧
      sampleRows how inv textures first units coords =
        inv.map f (Array.replicate inv.chain.rows default) := by
  obtain ⟨units, hunits, -⟩ := h.exists_units
  obtain ⟨_, -, textures, htextures, -⟩ := hsupplied first (by rw [hv]; exact List.mem_cons_self)
  obtain ⟨f, hf, hmap⟩ := exists_sampleRows_eq_map h hv fun r hr =>
    (hsupplied r hr).exists_unit h hunits htextures
  refine ⟨units, textures, f, hunits, htextures, fun r hr => ?_, hmap⟩
  obtain ⟨unit, texture, es, hunit, htexture, hes, hsample⟩ := hf r hr
  rw [← unitAt?_of_lane hunits] at hunit
  exact ⟨texture, es, ⟨textures, unit, htextures, hunit, htexture⟩, hes, hsample⟩

/-- A sweep of samples has nothing to report. -/
theorem quiet_samples {f : Nat → Outcome Rgba}
    (hf : ∀ r ∈ inv.chain.visited, SampleAt how inv sampler coords r (f r)) (blank : Array Rgba) :
    (inv.map f blank).Quiet := by
  by_cases hc : inv.chain.Closed
  · rw [Sweep.map, Sweep.apply_eq_atRows hc]
    refine Outcome.quiet_foldlM (fun r hr column => ?_) _
    unfold RowStep.atRow
    split
    · exact (hf r hr).quiet.bind fun _ => Outcome.quiet_ok _
    · exact Outcome.quiet_outOfRange
  · rw [Sweep.map, Sweep.apply_stray hc]
    exact Outcome.quiet_outOfRange

/-- What goes wrong with the samples goes wrong with the lookup, which has written nothing. -/
theorem lookUp_of_sampleRows_error {first : Nat} {rest : List Nat}
    (hv : inv.chain.visited = first :: rest) {units : Array Int32}
    (hunits : sampler.lane .int 0 = .ok units) {textures : TextureUnits}
    (htextures : inv.textures = some textures) {f : Failure}
    (h : sampleRows how inv textures first units coords = .error f) :
    (lookUp how inv sampler coords).run out = .error f out := by
  unfold lookUp
  rw [hv]
  refine run_ofExcept_bind_error hunits ?_
  rw [htextures]
  exact Stateful.run_bind_eq_error.2 (.inl (Stateful.run_ofExcept_eq_error.2 ⟨h, rfl⟩))

/-- Once there are colours, nothing can fail any more. -/
theorem exists_lookUp_of_map (h : Operands how inv.chain.rows sampler coords out) {first : Nat}
    {rest : List Nat} (hv : inv.chain.visited = first :: rest) {units : Array Int32}
    (hunits : sampler.lane .int 0 = .ok units) {textures : TextureUnits}
    (htextures : inv.textures = some textures) {f : Nat → Outcome Rgba}
    (hmap : sampleRows how inv textures first units coords =
      inv.map f (Array.replicate inv.chain.rows default)) {colours : Array Rgba}
    (hcolours : inv.map f (Array.replicate inv.chain.rows default) = .ok colours) :
    ∃ out', (lookUp how inv sampler coords).run out = .ok () out' := by
  have hc : inv.chain.Closed := Sweep.closed_of_apply (s := inv.toSweep) hcolours
  have hsize := Sweep.size_of_apply (s := inv.toSweep) hc hcolours
  rw [Array.size_replicate] at hsize
  obtain ⟨out', hout', -⟩ := exists_writeColours hc h.out_type h.out_wellFormed h.out_rows hsize
  exact ⟨out', (lookUp_eq_ok hv).2
    ⟨units, textures, colours, hunits, htextures, hmap.trans hcolours, hout'⟩⟩

/-- If the unit of each live row has a texture, a lookup succeeds or goes out of range. -/
theorem lookUp_of_supplied (h : Operands how inv.chain.rows sampler coords out)
    (hsupplied : ∀ r ∈ inv.chain.visited, Supplied inv sampler r) :
    (∃ out', (lookUp how inv sampler coords).run out = .ok () out') ∨
      (lookUp how inv sampler coords).run out = .error .outOfRange out := by
  cases hv : inv.chain.visited with
  | nil =>
    refine .inl ⟨out, ?_⟩
    rw [lookUp, hv]
    rfl
  | cons first rest =>
    obtain ⟨units, textures, f, hunits, htextures, hf, hmap⟩ := exists_sweep h hsupplied hv
    obtain ⟨colours, hcolours⟩ | hfails := (quiet_samples hf _).ok_or_outOfRange
    · exact .inl (exists_lookUp_of_map h hv hunits htextures hmap hcolours)
    · exact .inr (lookUp_of_sampleRows_error hv hunits htextures (hmap.trans hfails))

/-- What a lookup that succeeds leaves at a live row is the sample of the row. -/
theorem sampled_of_lookUp (h : Operands how inv.chain.rows sampler coords out)
    (hsupplied : ∀ r ∈ inv.chain.visited, Supplied inv sampler r) {out' : Register}
    (hrun : (lookUp how inv sampler coords).run out = .ok () out') {r : Nat}
    (hr : r ∈ inv.chain.visited) : Sampled how inv sampler coords out' r := by
  cases hv : inv.chain.visited with
  | nil =>
    rw [hv] at hr
    cases hr
  | cons first rest =>
    obtain ⟨units, textures, f, hunits, htextures, hf, hmap⟩ := exists_sweep h hsupplied hv
    obtain ⟨units', textures', colours, hunits', htextures', hcolours, hwrite⟩ :=
      (lookUp_eq_ok hv).1 hrun
    obtain rfl := Except.ok.inj (hunits.symm.trans hunits')
    obtain rfl := Option.some.inj (htextures.symm.trans htextures')
    rw [hmap] at hcolours
    have hc : inv.chain.Closed := Sweep.closed_of_apply (s := inv.toSweep) hcolours
    have hwrote := (Sweep.apply_eq_ok_iff hc).1 hcolours
    have hsize := hwrote.size_eq
    rw [Array.size_replicate] at hsize
    obtain ⟨_, colour, -, hcolour, hget⟩ := hwrote.live r hr
    obtain ⟨_, hwrite', hwritten⟩ :=
      exists_writeColours hc h.out_type h.out_wellFormed h.out_rows hsize
    cases hwrite.symm.trans hwrite'
    refine ⟨colour, hcolour ▸ hf r hr, hwritten.holds hr ?_ fun i e he old => ?_⟩
    · rw [h.out_wellFormed.length_lanes, h.out_type]
      rfl
    · rw [Sweep.rowOf_eq_ok.2 hget, Outcome.ok_bind, Rgba.component_of_getElem? he]
      rfl

/-- A lookup succeeds if each live row has a sample. -/
theorem exists_lookUp (h : Operands how inv.chain.rows sampler coords out)
    (hc : inv.chain.Closed) (hsupplied : ∀ r ∈ inv.chain.visited, Supplied inv sampler r)
    (hsamples : ∀ r ∈ inv.chain.visited, ∃ c, SampleAt how inv sampler coords r (.ok c)) :
    ∃ out', (lookUp how inv sampler coords).run out = .ok () out' := by
  cases hv : inv.chain.visited with
  | nil =>
    refine ⟨out, ?_⟩
    rw [lookUp, hv]
    rfl
  | cons first rest =>
    obtain ⟨units, textures, f, hunits, htextures, hf, hmap⟩ := exists_sweep h hsupplied hv
    have hlive : ∀ r ∈ inv.chain.visited, ∀ _ : Rgba, ∃ c, f r = .ok c := fun r hr _ => by
      obtain ⟨c, hsample⟩ := hsamples r hr
      exact ⟨c, (hf r hr).unique hsample⟩
    obtain ⟨colours, hcolours, -⟩ :=
      Sweep.exists_wrote (s := inv.toSweep) hc (fun r _ => f r) Array.size_replicate hlive
    exact exists_lookUp_of_map h hv hunits htextures hmap hcolours

theorem Supplied.exists_textureAt {r : Nat} (h : Supplied inv sampler r) :
    ∃ texture, TextureAt inv sampler r texture ∧ texture.samplerType = sampler.type := by
  obtain ⟨unit, hunit, textures, htextures, texture, htexture, htype⟩ := h
  exact ⟨texture, ⟨textures, unit, htextures, hunit, htexture⟩, htype⟩

/-- The sample of a row whose texture has a texel for each place. -/
theorem exists_sampleAt (h : Operands how inv.chain.rows sampler coords out) {r : Nat}
    (hr : r ∈ inv.chain.visited) {texture : Texture} (htexture : TextureAt inv sampler r texture)
    (htype : texture.samplerType = sampler.type) (hfull : texture.Full) :
    ∃ c, SampleAt how inv sampler coords r (.ok c) := by
  obtain ⟨es, hes, hlen⟩ := h.exists_coordinates hr
  have hle : how.coordinates ≤ es.length := hlen ▸ h.coordinates_le
  obtain ⟨c, hc⟩ := Addressing.exists_sample hfull (htype.trans h.sampler_type) hle
  exact ⟨c, texture, es, htexture, hes, hc⟩

/-- The sample of a row with any texture exists, or leaves the texture. -/
theorem exists_sampleAt_or (h : Operands how inv.chain.rows sampler coords out) {r : Nat}
    (hr : r ∈ inv.chain.visited) {texture : Texture} (htexture : TextureAt inv sampler r texture) :
    (∃ c, SampleAt how inv sampler coords r (.ok c)) ∨
      SampleAt how inv sampler coords r (.error .outOfRange) := by
  obtain ⟨es, hes, -⟩ := h.exists_coordinates hr
  obtain ⟨c, hc⟩ | hout := (how.quiet_sample texture es).ok_or_outOfRange
  · exact .inl ⟨c, texture, es, htexture, hes, hc⟩
  · exact .inr ⟨texture, es, htexture, hes, hout⟩

/-- A lookup fails at the first live row whose unit has no texture of the right kind, and writes
nothing. -/
theorem lookUp_eq_error (h : Operands how inv.chain.rows sampler coords out) {r : Nat}
    (hr : r ∈ inv.chain.visited) {unit : Int32} (hunit : unitAt? sampler r = some unit)
    (hmissing : ¬Bound inv sampler.type unit)
    (hbefore : ∀ q ∈ inv.chain.visited, q < r → Supplied inv sampler q) :
    (lookUp how inv sampler coords).run out =
      .error (.error (.textureUnit unit how.samplerType)) out := by
  obtain ⟨units, hunits, -⟩ := h.exists_units
  rw [unitAt?_of_lane hunits] at hunit
  have hsorted := inv.chain.visited_pairwise
  cases hv : inv.chain.visited with
  | nil =>
    rw [hv] at hr
    cases hr
  | cons first rest =>
    cases htextures : inv.textures with
    | none =>
      -- no row has a texture, so `r` is the first one
      obtain rfl : r = first := by
        rw [hv] at hr hsorted
        refine (List.mem_cons.1 hr).resolve_right fun hrest => ?_
        have hlt := (List.pairwise_cons.1 hsorted).1 r hrest
        obtain ⟨_, -, _, hnone, -⟩ := hbefore first (by rw [hv]; exact List.mem_cons_self) hlt
        rw [htextures] at hnone
        cases hnone
      unfold lookUp
      rw [hv]
      refine run_ofExcept_bind_error hunits ?_
      rw [htextures]
      exact run_ofExcept_bind_error (Sweep.rowOf_eq_ok.2 hunit) rfl
    | some textures =>
      have hnone : ¬HasTexture textures how.samplerType unit := fun htexture =>
        hmissing ⟨textures, htextures, h.sampler_type ▸ htexture⟩
      exact lookUp_of_sampleRows_error hv hunits htextures (sampleRows_eq_error h hv hr hunit hnone
        fun q hq hlt => (hbefore q hq hlt).exists_unit h hunits htextures)

end Lookups

/-! ## Calls of lookups -/

section Calls

variable {how : Addressing} {s : Signature} {inv : Invocation} {args : List Register}
  {out : Register}

/-- The arguments of a call that fits. -/
theorem LookupFits.exists_operands (hs : LookupFits how s) {rows : Nat}
    (hfits : Fits s rows args out) :
    ∃ sampler coords rest, args = sampler :: coords :: rest ∧ rest.length ≤ 1 ∧
      Operands how rows sampler coords out := by
  obtain ⟨hresult, hlen, hsampler, hcoords⟩ := hs
  rw [← hfits.params, List.length_map] at hlen
  match args, hlen with
  | sampler :: coords :: rest, hlen =>
    rw [← hfits.params] at hsampler hcoords
    simp only [List.map_cons, List.getElem?_cons_zero, List.getElem?_cons_succ, Option.some.injEq,
      Option.any_some, Bool.and_eq_true, beq_iff_eq, decide_eq_true_eq] at hsampler hcoords
    refine ⟨sampler, coords, rest, rfl, by simp only [List.length_cons] at hlen; omega, ?_⟩
    exact {
      sampler_type := hsampler
      sampler_wellFormed := hfits.args_wellFormed sampler (by simp)
      sampler_rows := hfits.args_rows sampler (by simp)
      coords_kind := hcoords.1
      coordinates_le := hcoords.2
      coords_wellFormed := hfits.args_wellFormed coords (by simp)
      coords_rows := hfits.args_rows coords (by simp)
      out_type := hfits.result.trans hresult
      out_wellFormed := hfits.out_wellFormed
      out_rows := hfits.out_rows }

/-- A call that fits is the lookup. -/
theorem execute_textureLookup {sampler coords : Register} {rest : List Register}
    (hrest : rest.length ≤ 1) (hfits : Fits s inv.chain.rows (sampler :: coords :: rest) out) :
    (execute ⟨s, textureLookup how s⟩ inv (sampler :: coords :: rest)).run out =
      (lookUp how inv sampler coords).run out := by
  refine (execute_of_check_ok rfl hfits.checkCall).trans ?_
  match rest, hrest with
  | [], _ | [_], _ => rfl

end Calls

end Builtin

end BatchShader
