import BatchShader.Builtin.Catalogue
import BatchShader.Proofs.Builtin.Registry
import BatchShader.Proofs.Builtin.Stray
import Mathlib.Tactic.FinCases

/-
  The overloads of the standard registry.

  Every declaration of the catalogue parses, and each signature that it expands to fits the
  implementation it is declared with. So each overload of the registry is one whose slots agree, a
  texture lookup, or one that cannot be called (`Catalogued`).
-/

namespace BatchShader

namespace Builtin

/-- How many coordinates a lookup reads from the front. -/
def Addressing.coordinates : Addressing → Nat
  | .flat | .projective => 2
  | .cube => 3

/-- A colour from a sampler, enough float coordinates, and perhaps one more argument. -/
def LookupFits (how : Addressing) (s : Signature) : Prop :=
  s.result = .vec4 ∧ (s.params.length = 2 ∨ s.params.length = 3) ∧
    s.params[0]? = some how.samplerType ∧
    (s.params[1]?.any fun t => t.kind? == some .float && how.coordinates ≤ t.components) = true

instance (how : Addressing) : DecidablePred (LookupFits how) :=
  fun _ => inferInstanceAs (Decidable (_ ∧ _ ∧ _ ∧ _))

/-- What the overloads of the catalogue are. -/
inductive Catalogued : Builtin → Prop
  | agree {b : Builtin} (hboth : b.hasBothSlots = true) (h : SlotsAgree b) (hstray : Strays b) :
    Catalogued b
  | texture {s : Signature} {how : Addressing} (hs : LookupFits how s) :
      Catalogued ⟨s, textureLookup how s⟩
  | missing (s : Signature) : Catalogued ⟨s, .missing⟩

/-- A line that parses to signatures of the right form. -/
def LineFits (text : String) (fits : Signature → Prop) [DecidablePred fits] : Bool :=
  match Declaration.parse text with
  | .ok d => d.expand.all (decide <| fits ·)
  | .error _ => false

/-- The signatures that such a line stands for are of that form. -/
theorem fits_of_lineFits {text : String} {fits : Signature → Prop} [DecidablePred fits]
    (h : LineFits text fits = true) {d : Declaration} (hd : Declaration.parse text = .ok d)
    {s : Signature} (hs : s ∈ d.expand) : fits s := by
  rw [LineFits, hd, List.all_eq_true] at h
  exact of_decide_eq_true (h s hs)

/-- A line all of whose overloads are of a known form. -/
def LineCatalogued (line : CatalogueLine) : Prop :=
  ∃ d, Declaration.parse line.1 = .ok d ∧ ∀ s ∈ d.expand, Catalogued ⟨s, line.2 s⟩

theorem lineCatalogued_of_fits {text : String} {fits : Signature → Prop} [DecidablePred fits]
    (h : LineFits text fits = true) {implement : Signature → Implementation}
    (hfits : ∀ s, fits s → Catalogued ⟨s, implement s⟩) : LineCatalogued (text, implement) := by
  unfold LineFits at h
  split at h
  · next d hd =>
    rw [List.all_eq_true] at h
    exact ⟨d, hd, fun s hs => hfits s (of_decide_eq_true (h s hs))⟩
  · cases h

theorem lineCatalogued_componentwise {text : String} {k : Kind} {ks : List Kind}
    (f : ElemFun k ks) (h : LineFits text (ComponentwiseFits ks k) = true) :
    LineCatalogued (text, componentwise ks f) :=
  lineCatalogued_of_fits h fun _ hs =>
    .agree rfl (slotsAgree_componentwise f hs) (strays_componentwise f hs)

theorem lineCatalogued_reduce {text : String} {k : Kind} (op : k.Elem → k.Elem → k.Elem)
    (h : LineFits text (ReduceFits k) = true) : LineCatalogued (text, reduce op) :=
  lineCatalogued_of_fits h fun _ hs => .agree rfl (slotsAgree_reduce op hs) (strays_reduce op hs)

theorem lineCatalogued_pairSum {text : String} (step : SumStep) (finish : Binary32 → Binary32)
    (h : LineFits text PairSumFits = true) : LineCatalogued (text, pairSum step finish) :=
  lineCatalogued_of_fits h fun _ hs =>
    .agree rfl (slotsAgree_pairSum step finish hs) (strays_pairSum step finish hs)

theorem lineCatalogued_texture {text : String} (how : Addressing)
    (h : LineFits text (LookupFits how) = true) : LineCatalogued (text, textureLookup how) :=
  lineCatalogued_of_fits h fun _ hs => .texture hs

theorem lineCatalogued_missing {text : String} (h : LineFits text (fun _ => True) = true) :
    LineCatalogued (text, fun _ => .missing) :=
  lineCatalogued_of_fits h fun s _ => .missing s

theorem trigonometry_catalogued : ∀ line ∈ trigonometry, LineCatalogued line := by
  intro line hline
  unfold trigonometry at hline
  fin_cases hline <;> exact lineCatalogued_componentwise _ (by decide +kernel)

theorem exponentials_catalogued : ∀ line ∈ exponentials, LineCatalogued line := by
  intro line hline
  unfold exponentials at hline
  fin_cases hline <;> exact lineCatalogued_componentwise _ (by decide +kernel)

theorem commonFunctions_catalogued : ∀ line ∈ commonFunctions, LineCatalogued line := by
  intro line hline
  unfold commonFunctions at hline
  fin_cases hline <;> exact lineCatalogued_componentwise _ (by decide +kernel)

theorem geometry_catalogued : ∀ line ∈ geometry, LineCatalogued line := by
  intro line hline
  unfold geometry at hline
  fin_cases hline
  · exact lineCatalogued_pairSum _ _ (by decide +kernel)
  · exact lineCatalogued_pairSum _ _ (by decide +kernel)
  · exact lineCatalogued_pairSum _ _ (by decide +kernel)
  · exact lineCatalogued_of_fits (by decide +kernel) fun _ hs =>
      .agree rfl (slotsAgree_cross hs) (strays_cross hs)
  · exact lineCatalogued_of_fits (by decide +kernel) fun _ hs =>
      .agree rfl (slotsAgree_normalize hs) (strays_normalize hs)
  · exact lineCatalogued_of_fits (by decide +kernel) fun _ hs =>
      .agree rfl (slotsAgree_faceforward hs) (strays_faceforward hs)
  · exact lineCatalogued_missing (by decide +kernel)
  · exact lineCatalogued_missing (by decide +kernel)

theorem matrices_catalogued : ∀ line ∈ matrices, LineCatalogued line := by
  intro line hline
  rw [matrices, List.mem_singleton] at hline
  subst hline
  exact lineCatalogued_componentwise _ (by decide +kernel)

theorem relations_catalogued : ∀ line ∈ relations, LineCatalogued line := by
  intro line hline
  unfold relations at hline
  fin_cases hline
  all_goals
    first
    | exact lineCatalogued_componentwise _ (by decide +kernel)
    | exact lineCatalogued_reduce _ (by decide +kernel)

theorem textureLookups_catalogued : ∀ line ∈ textureLookups, LineCatalogued line := by
  intro line hline
  unfold textureLookups at hline
  fin_cases hline <;> exact lineCatalogued_texture _ (by decide +kernel)

theorem catalogue_catalogued : ∀ line ∈ catalogue, LineCatalogued line := by
  unfold catalogue
  simp only [List.forall_mem_append]
  exact ⟨⟨⟨⟨⟨⟨trigonometry_catalogued, exponentials_catalogued⟩, commonFunctions_catalogued⟩,
    geometry_catalogued⟩, matrices_catalogued⟩, relations_catalogued⟩, textureLookups_catalogued⟩

/-- The standard registry exists, and its overloads are of the known forms. -/
theorem exists_standard :
    ∃ registry, standard = .ok registry ∧ ∀ b ∈ registry.overloads, Catalogued b :=
  Registry.exists_build catalogue_catalogued

/-- The standard registry itself. -/
def standardRegistry : Registry Implementation := standard.toOption.getD .empty

theorem standard_eq_ok : standard = .ok standardRegistry := by
  obtain ⟨registry, h, -⟩ := exists_standard
  rw [standardRegistry, h]
  rfl

/-! ## Agreement of the slots -/

theorem Catalogued.slotsAgree {b : Builtin} (h : Catalogued b) (hboth : b.hasBothSlots = true) :
    SlotsAgree b := by
  cases h with
  | agree _ h => exact h
  | texture hs => cases hboth
  | missing s => cases hboth

theorem catalogued_of_mem {registry : Registry Implementation} (h : standard = .ok registry)
    {b : Builtin} (hb : b ∈ registry.overloads) : Catalogued b := by
  obtain ⟨registry', h', hall⟩ := exists_standard
  obtain rfl : registry = registry' := Except.ok.inj (h.symm.trans h')
  exact hall b hb

/-- The two slots of every overload of the standard registry agree: on registers of the parameter
types, as long as the batch, the overload runs under every policy and changes nothing of the result
but live rows; and at each live row it leaves, bit for bit, the value that its constant form gives
on the arguments' values at the row. -/
theorem standard_slots_agree {registry : Registry Implementation} (h : standard = .ok registry)
    {b : Builtin} (hb : b ∈ registry.overloads) (hboth : b.hasBothSlots = true)
    {inv : Invocation} (hchain : LiveChain.Built inv.chain) {args : List Register}
    {out : Register} (hfits : Fits b.signature inv.chain.rows args out) :
    ∃ out', (b.execute inv args).run out = .ok () out' ∧
      (∀ r ∈ inv.chain.visited, ∃ vs v, args.mapM (·.rowValue? r) = some vs ∧
        b.evaluate vs = .ok (some v) ∧ v.type = b.signature.result ∧
        out'.rowValue? r = some v) ∧
      Register.Kept inv.chain out out' := by
  obtain ⟨out', hrun, hkept, hrows⟩ :=
    (catalogued_of_mem h hb).slotsAgree hboth inv args out hchain.canonical.closed hfits
  refine ⟨out', hrun, fun r hr => ?_, hkept⟩
  obtain ⟨vs, v, hvs, hv, hrow⟩ := hrows r hr
  refine ⟨vs, v, hvs, hv, ?_, hrow⟩
  rw [Register.type_of_rowValue? hrow, hkept.type_eq, hfits.result]

theorem standard_slots_agree_radians :
    ∃ registry c, ∃ b : Builtin, standard = .ok registry ∧ b ∈ registry.overloads ∧
      b.hasBothSlots = true ∧ b.signature = ⟨.float, "radians", [.float]⟩ ∧
      LiveChain.ofMask #[true, false] = .ok c ∧
      ∃ out' vs v, (b.execute ⟨⟨c, .wide8⟩, none⟩ [.zeroed .float 2]).run (.zeroed .float 2) =
          .ok () out' ∧ [Register.zeroed .float 2].mapM (·.rowValue? 0) = some vs ∧
        b.evaluate vs = .ok (some v) ∧ out'.rowValue? 0 = some v ∧
        Register.Kept c (.zeroed .float 2) out' := by
  obtain ⟨registry, hreg, -⟩ := exists_standard
  have hmem : (⟨⟨.float, "radians", [.float]⟩, float1 Binary32.radians _⟩ : Builtin) ∈
      registry.overloads :=
    Registry.first_mem_build (d := ⟨.placeholder .genType, "radians", [.placeholder .genType]⟩)
      (by decide +kernel) rfl hreg
  obtain ⟨c, hc⟩ : ∃ c, LiveChain.ofMask #[true, false] = .ok c := ⟨_, rfl⟩
  obtain ⟨hlimit, hbuild⟩ := LiveChain.ofMask_eq_ok hc
  have hrows : 2 = c.rows := by
    rw [hbuild, LiveChain.rows_build]
    rfl
  have hlive : 0 ∈ c.visited := by
    rw [hbuild, LiveChain.visited_build (LiveChain.ascending_liveRows hlimit)]
    decide
  have hzero := Register.zeroed_wellFormed .float 2
  have hchain : LiveChain.Built (Invocation.mk ⟨c, .wide8⟩ none).chain := .ofMask hc
  have hfits : Fits ⟨.float, "radians", [.float]⟩ c.rows [.zeroed .float 2] (.zeroed .float 2) :=
    ⟨rfl, rfl, by simpa using hzero, by simpa [Register.zeroed] using hrows, hzero, hrows⟩
  obtain ⟨out', hrun, hvalue, hkept⟩ := standard_slots_agree hreg hmem rfl hchain hfits
  obtain ⟨vs, v, hvs, hv, -, hrow⟩ := hvalue 0 hlive
  exact ⟨registry, c, _, hreg, hmem, rfl, rfl, hc, out', vs, v, hrun, hvs, hv, hrow, hkept⟩

end Builtin

end BatchShader
