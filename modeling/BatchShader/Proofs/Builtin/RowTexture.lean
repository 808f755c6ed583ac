import BatchShader.Proofs.Builtin.Names
import BatchShader.Proofs.Builtin.Resolution

/-
  What the texture lookups of the standard registry compute.

  The name of an overload tells how it addresses a texture (`lookup_of_mem`). If the units of all
  live rows have textures, each live row of the result is the sample of the row's own texture at the
  row's own coordinates (`sampled_of_lookUp`), or a live row has no sample, because its texture has
  no texel for some place, and the lookup goes out of range. Else the lookup fails for the first
  live row whose unit has no texture.
-/

namespace BatchShader.Builtin

/-! ## Lookups of the registry -/

namespace Addressing

/-- The names of the overloads that address a texture in this way. -/
def names : Addressing → List String
  | flat => ["texture2D", "texture2DLod"]
  | projective => ["texture2DProj", "texture2DProjLod"]
  | cube => ["textureCube", "textureCubeLod"]

theorem eq_of_mem_names {how how' : Addressing} {name : String} (h : name ∈ how.names)
    (h' : name ∈ how'.names) : how = how' := by
  cases how <;> cases how' <;> first | rfl | (simp [names] at h h'; grind)

end Addressing

/-- A signature of a lookup, under one of the names. -/
def LooksUp (how : Addressing) (s : Signature) : Prop := s.name ∈ how.names ∧ LookupFits how s

instance (how : Addressing) : DecidablePred (LooksUp how) :=
  fun _ => inferInstanceAs (Decidable (_ ∧ _))

/-- A signature under another name. -/
def NoLookup (s : Signature) : Prop :=
  s.name ∉ [Addressing.flat, .projective, .cube].flatMap Addressing.names

instance : DecidablePred NoLookup := fun _ => inferInstanceAs (Decidable (¬_))

theorem textureLookups_lookUp : ∀ line ∈ textureLookups, ∃ how,
    line.2 = textureLookup how ∧ LineFits line.1 (LooksUp how) = true := by
  intro line hline
  unfold textureLookups at hline
  fin_cases hline <;> exact ⟨_, rfl, by decide +kernel⟩

/-- The lines before the lookups declare other names. -/
theorem others_noLookup {line : CatalogueLine} (hline : line ∈ trigonometry ++ exponentials ++
    commonFunctions ++ geometry ++ matrices ++ relations) {d : Declaration}
    (hd : Declaration.parse line.1 = .ok d) {s : Signature} (hs : s ∈ d.expand) : NoLookup s := by
  have hothers : ∀ name ∈ names.take 61,
      name ∉ [Addressing.flat, .projective, .cube].flatMap Addressing.names := by decide +kernel
  have htaken : (catalogue.take 61).map declaredName = (names.take 61).map some := by
    rw [List.map_take, names_eq, List.map_take]
  have hdeclared : declaredName line = some s.name := by
    rw [declaredName, hd, Declaration.name_of_mem_expand hs]
    rfl
  have hmem : some s.name ∈ (names.take 61).map some :=
    htaken ▸ List.mem_map.2 ⟨line, hline, hdeclared⟩
  exact hothers _ (List.mem_map_of_injective (Option.some_injective _) |>.1 hmem)

/-- The overloads under the names of an addressing are its lookups. -/
theorem lookup_of_mem {registry : Registry Implementation} (h : standard = .ok registry)
    {b : Builtin} (hb : b ∈ registry.overloads) {how : Addressing}
    (hname : b.signature.name ∈ how.names) :
    b.body = textureLookup how b.signature ∧ LooksUp how b.signature := by
  obtain ⟨line, hline, d, hd, s, hs, rfl⟩ := Registry.mem_of_build h hb
  rcases List.mem_append.1 hline with hother | hlookup
  · refine absurd (List.mem_flatMap.2 ⟨how, ?_, hname⟩)
      (others_noLookup hother hd hs)
    cases how <;> simp
  · obtain ⟨how', hbody, hfits⟩ := textureLookups_lookUp line hlookup
    have hlooks := fits_of_lineFits hfits hd hs
    obtain rfl := Addressing.eq_of_mem_names hname hlooks.1
    exact ⟨congrFun hbody s, hlooks⟩

/-- The lookup of an image at a vector of two is found. -/
theorem lookup_texture2D {registry : Registry Implementation} (h : standard = .ok registry) :
    let s : Signature := ⟨.vec4, "texture2D", [.sampler2D, .vec2]⟩
    registry.lookup "texture2D" [.sampler2D, .vec2] = .ok ⟨s, textureLookup .flat s⟩ := by
  intro s
  obtain ⟨b, hlookup, hname, hparams⟩ := Registry.exists_lookup_of_build h
    (List.mem_append_right _ List.mem_cons_self)
    (d := ⟨.concrete .vec4, "texture2D", [.concrete .sampler2D, .concrete .vec2]⟩)
    (by decide +kernel) (s := s) (by decide +kernel)
  have hnames : b.signature.name ∈ Addressing.flat.names := by
    rw [hname]
    exact List.mem_cons_self
  obtain ⟨hbody, -, hresult, -⟩ := lookup_of_mem h (Registry.mem_of_lookup hlookup) hnames
  obtain ⟨⟨result, name, params⟩, body⟩ := b
  dsimp only at hname hparams hresult hbody
  subst hname hparams hresult hbody
  exact hlookup

/-! ## Calls of the registry's lookups -/

/-- A lookup reads the units and coordinates of live rows only. -/
theorem lookUp_congr {how : Addressing} {inv : Invocation}
    {sampler sampler' coords coords' out : Register}
    (h : Operands how inv.chain.rows sampler coords out)
    (h' : Operands how inv.chain.rows sampler' coords' out) (htype : coords'.type = coords.type)
    (hsame : ∀ r ∈ inv.chain.visited,
      sampler'.atRow r = sampler.atRow r ∧ coords'.atRow r = coords.atRow r) :
    lookUp how inv sampler' coords' = lookUp how inv sampler coords := by
  have hsampler : sampler'.restrict inv.chain = sampler.restrict inv.chain :=
    Register.restrict_eq_restrict_iff.2 ⟨h'.sampler_wellFormed.shape_eq h.sampler_wellFormed
      (h'.sampler_type.trans h.sampler_type.symm) (h'.sampler_rows.trans h.sampler_rows.symm),
      fun r hr => (hsame r hr).1⟩
  have hcoords : coords'.restrict inv.chain = coords.restrict inv.chain :=
    Register.restrict_eq_restrict_iff.2 ⟨h'.coords_wellFormed.shape_eq h.coords_wellFormed htype
      (h'.coords_rows.trans h.coords_rows.symm), fun r hr => (hsame r hr).2⟩
  rw [← lookUp_restrict, hsampler, hcoords, lookUp_restrict]

/-- A call of a lookup that fits: what it comes down to, and its operands. -/
theorem LooksUp.exists_call {how : Addressing} {s : Signature} (hs : LooksUp how s)
    {inv : Invocation} {sampler coords : Register} {rest : List Register} {out : Register}
    (hfits : Fits s inv.chain.rows (sampler :: coords :: rest) out) :
    Operands how inv.chain.rows sampler coords out ∧ s.params[1]? = some coords.type ∧
      (execute ⟨s, textureLookup how s⟩ inv (sampler :: coords :: rest)).run out =
        (lookUp how inv sampler coords).run out := by
  obtain ⟨_, _, _, heq, hrest, hoperands⟩ := hs.2.exists_operands hfits
  cases heq
  refine ⟨hoperands, ?_, execute_textureLookup hrest hfits⟩
  rw [← hfits.params]
  rfl

/-- What a texture lookup does, whatever the chain is, the policy and the textures. -/
structure LooksUpRows (b : Builtin) (how : Addressing) (inv : Invocation)
    (sampler coords : Register) (rest : List Register) (out : Register) : Prop where
  /-- If the units of all live rows have a texture of the right kind, and the chain stays inside
  the batch, each live row receives the sample of the texture of its own unit at its own
  coordinates, if these samples exist. No other row changes. -/
  sampled : inv.chain.Closed → (∀ r ∈ inv.chain.visited, Supplied inv sampler r) →
    (∀ r ∈ inv.chain.visited, ∃ colour, SampleAt how inv sampler coords r (.ok colour)) →
    ∃ out', (b.execute inv (sampler :: coords :: rest)).run out = .ok () out' ∧
      (∀ r ∈ inv.chain.visited, Sampled how inv sampler coords out' r) ∧
      Register.Kept inv.chain out out'
  /-- They exist, if the textures of live rows have a texel for each place. -/
  exists_sample : ∀ r ∈ inv.chain.visited, ∀ texture, TextureAt inv sampler r texture →
    texture.samplerType = how.samplerType → texture.Full →
    ∃ colour, SampleAt how inv sampler coords r (.ok colour)
  /-- If a live row has none, its sample reads a place without a texel. Then the call goes out of
  range too, before it has written anything. -/
  outOfRange : (∀ r ∈ inv.chain.visited, Supplied inv sampler r) → ∀ r ∈ inv.chain.visited,
    (∀ colour, ¬SampleAt how inv sampler coords r (.ok colour)) →
    SampleAt how inv sampler coords r (.error .outOfRange) ∧
      (b.execute inv (sampler :: coords :: rest)).run out = .error .outOfRange out
  /-- If a live row's unit has no texture of the right kind, the call fails for the first such row
  and changes nothing. -/
  missing : (¬∀ r ∈ inv.chain.visited, Supplied inv sampler r) →
    ∃ r ∈ inv.chain.visited, ∃ unit, unitAt? sampler r = some unit ∧
      ¬Bound inv how.samplerType unit ∧
      (∀ q ∈ inv.chain.visited, q < r → Supplied inv sampler q) ∧
      (b.execute inv (sampler :: coords :: rest)).run out =
        .error (.error (.textureUnit unit how.samplerType)) out
  /-- The units and coordinates of other rows do not matter, nor does a third argument. -/
  live : ∀ sampler' coords' rest',
    Fits b.signature inv.chain.rows (sampler' :: coords' :: rest') out →
    (∀ r ∈ inv.chain.visited,
      sampler'.atRow r = sampler.atRow r ∧ coords'.atRow r = coords.atRow r) →
    (b.execute inv (sampler' :: coords' :: rest')).run out =
      (b.execute inv (sampler :: coords :: rest)).run out
  /-- Without live rows nothing can fail. -/
  empty : inv.chain.visited = [] →
    (b.execute inv (sampler :: coords :: rest)).run out = .ok () out

/-- The texture lookups of the standard registry resolve each row by itself. -/
theorem execute_lookup_rows {registry : Registry Implementation} (h : standard = .ok registry)
    {b : Builtin} (hb : b ∈ registry.overloads) {how : Addressing}
    (hname : b.signature.name ∈ how.names) {inv : Invocation} {sampler coords : Register}
    {rest : List Register} {out : Register}
    (hfits : Fits b.signature inv.chain.rows (sampler :: coords :: rest) out) :
    LooksUpRows b how inv sampler coords rest out := by
  obtain ⟨hbody, hlooks⟩ := lookup_of_mem h hb hname
  obtain ⟨s, body⟩ := b
  obtain rfl : body = textureLookup how s := hbody
  obtain ⟨hoperands, hparam, hcall⟩ := hlooks.exists_call hfits
  constructor
  case sampled =>
    intro hc hsupplied hsamples
    obtain ⟨out', hrun⟩ := exists_lookUp hoperands hc hsupplied hsamples
    exact ⟨out', hcall.trans hrun, fun r hr => sampled_of_lookUp hoperands hsupplied hrun hr,
      kept_lookUp hc hrun⟩
  case exists_sample =>
    intro r hr texture htexture htype hfull
    exact exists_sampleAt hoperands hr htexture (htype.trans hoperands.sampler_type.symm) hfull
  case outOfRange =>
    intro hsupplied r hr hnone
    obtain ⟨texture, htexture, -⟩ := (hsupplied r hr).exists_textureAt
    have houtside := (exists_sampleAt_or hoperands hr htexture).resolve_left
      fun ⟨colour, hcolour⟩ => hnone colour hcolour
    refine ⟨houtside, hcall.trans ?_⟩
    -- a lookup that succeeds would have left a sample at the row
    refine (lookUp_of_supplied hoperands hsupplied).resolve_left fun ⟨out', hrun⟩ => ?_
    obtain ⟨colour, hcolour, -⟩ := sampled_of_lookUp hoperands hsupplied hrun hr
    exact hnone colour hcolour
  case missing =>
    intro hmissing
    obtain ⟨r, ⟨hr, unit, hunit, hnone⟩, hbefore⟩ :=
      (supplied_or_missing hoperands).resolve_left hmissing
    exact ⟨r, hr, unit, hunit, hoperands.sampler_type ▸ hnone, hbefore,
      hcall.trans (lookUp_eq_error hoperands hr hunit hnone hbefore)⟩
  case live =>
    intro sampler' coords' rest' hfits' hsame
    obtain ⟨hoperands', hparam', hcall'⟩ := hlooks.exists_call hfits'
    have htypes : coords'.type = coords.type :=
      Option.some.inj (hparam'.symm.trans hparam)
    rw [hcall', hcall, lookUp_congr hoperands hoperands' htypes hsame]
  case empty =>
    intro hv
    refine hcall.trans ?_
    rw [lookUp, hv]
    rfl

theorem execute_lookup_rows_deadUnit :
    let chain : LiveChain := .build 3 [1, 2]
    let image : Image := ⟨1, 1, #[⟨.one, .zero, .zero, .one⟩], default⟩
    let textures : TextureUnits := .bind .empty 3 (.flat image)
    let sampler : Register := ⟨.sampler2D, 3, [⟨.int, #[9, 3, 3]⟩]⟩
    let coords : Register := .zeroed .vec2 3
    let out : Register := .zeroed .vec4 3
    ∃ registry, ∃ b : Builtin, standard = .ok registry ∧ b ∈ registry.overloads ∧
      b.signature.name = "texture2D" ∧ chain.visited = [1, 2] ∧
      (∃ out', (b.execute ⟨⟨chain, .wide8⟩, some textures⟩ [sampler, coords]).run out =
          .ok () out' ∧ Sampled .flat ⟨⟨chain, .wide8⟩, some textures⟩ sampler coords out' 2 ∧
        out'.atRow 0 = out.atRow 0) ∧
      (b.execute ⟨⟨chain, .wide8⟩, none⟩ [sampler, coords]).run out =
        .error (.error (.textureUnit 3 .sampler2D)) out := by
  intro chain image textures sampler coords out
  obtain ⟨registry, hreg, -⟩ := exists_standard
  let s : Signature := ⟨.vec4, "texture2D", [.sampler2D, .vec2]⟩
  let b : Builtin := ⟨s, textureLookup .flat s⟩
  have hb : b ∈ registry.overloads := Registry.mem_of_lookup (lookup_texture2D hreg)
  have hvisited : chain.visited = [1, 2] := by decide +kernel
  have hchain : chain.Canonical := LiveChain.canonical_build ⟨by decide, by decide, by decide⟩
  have hunit : ∀ r ∈ chain.visited, unitAt? sampler r = some 3 := by decide +kernel
  have hfits : Fits b.signature chain.rows [sampler, coords] out := by
    have hsampler : sampler.WellFormed := ⟨rfl, by simp [sampler]; rfl, by simp [sampler]; rfl⟩
    exact ⟨rfl, rfl, by simpa using ⟨hsampler, Register.zeroed_wellFormed .vec2 3⟩,
      by decide +kernel, Register.zeroed_wellFormed .vec4 3, by decide +kernel⟩
  have hfull : (Texture.flat image).Full := fun i hi => by
    rw [List.mem_singleton.1 hi]
    exact ⟨by decide, by decide, by decide, by decide⟩
  have hrows := fun textures => @execute_lookup_rows registry hreg b hb .flat List.mem_cons_self
    ⟨⟨chain, .wide8⟩, textures⟩ sampler coords [] out hfits
  refine ⟨registry, b, hreg, hb, rfl, hvisited, ?_, ?_⟩
  · have hbound : ∀ r ∈ chain.visited,
        TextureAt ⟨⟨chain, .wide8⟩, some textures⟩ sampler r (.flat image) := fun r hr =>
      ⟨textures, 3, rfl, hunit r hr, rfl⟩
    obtain ⟨out', hrun, hsampled, hkept⟩ := (hrows (some textures)).sampled hchain.closed
      (fun r hr => ⟨3, hunit r hr, textures, rfl, .flat image, rfl, rfl⟩)
      (fun r hr => (hrows (some textures)).exists_sample r hr _ (hbound r hr) rfl hfull)
    exact ⟨out', hrun, hsampled 2 (by decide +kernel), hkept.atRow_eq 0 (by decide +kernel)⟩
  · have hunbound : ∀ unit, ¬Bound ⟨⟨chain, .wide8⟩, none⟩ .sampler2D unit := by
      rintro unit ⟨textures, htextures, -⟩
      cases htextures
    obtain ⟨r, hr, unit, hr', -, -, hrun⟩ := (hrows none).missing fun hsupplied => by
      obtain ⟨unit, -, hbound⟩ := hsupplied 1 (by decide +kernel)
      exact hunbound unit hbound
    obtain rfl : 3 = unit := Option.some.inj ((hunit r hr).symm.trans hr')
    exact hrun

end BatchShader.Builtin
