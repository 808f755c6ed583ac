import BatchShader.Proofs.Builtin.RowWise

/-
  Texture lookups treat the rows of a batch one by one.

  The textures of all live rows are resolved before anything is written (`resolve_wrote`): the
  texture found for a live row is the one bound to the row's own unit, whichever row comes first.
-/

namespace BatchShader.Builtin

/-! ## Resolving units -/

theorem foldlM_setIfInBounds_wrote {α : Type} {f : Nat → Outcome α} {l : List Nat}
    (hl : l.Nodup) {old new : Array α} (hlt : ∀ r ∈ l, r < old.size)
    (h : l.foldlM (fun bound r => do return bound.setIfInBounds r (← f r)) old = .ok new) :
    RowStep.Wrote (fun r _ => f r) l old new := by
  rw [← RowStep.atRows_eq_ok_iff hl]
  clear hl
  induction l generalizing old with
  | nil => exact h
  | cons r l ih =>
    rw [List.forall_mem_cons] at hlt
    rw [List.foldlM_cons] at h
    obtain ⟨mid, hmid, h⟩ := Outcome.bind_eq_ok.1 h
    obtain ⟨x, hx, hmid⟩ := Outcome.bind_eq_ok.1 hmid
    obtain rfl := Except.ok.inj hmid
    refine Outcome.bind_eq_ok.2 ⟨_, RowStep.atRow_eq_ok.2
      ⟨old[r], x, Array.getElem?_eq_getElem hlt.1, hx, rfl⟩, ih (fun r' hr' => ?_) h⟩
    rw [Array.size_setIfInBounds]
    exact hlt.2 r' hr'

theorem resolve_eq_ok {α : Type} {chain : LiveChain} {first : Nat} {units : Array Int32}
    {find : Int32 → Outcome α} {bound : Array α}
    (h : resolve chain first units find = .ok bound) :
    ∀ r ∈ chain.visited, ∃ unit texture, units[r]? = some unit ∧ find unit = .ok texture ∧
      bound[r]? = some texture := by
  obtain ⟨_, -, h⟩ := Outcome.bind_eq_ok.1 h
  obtain ⟨texture, -, h⟩ := Outcome.bind_eq_ok.1 h
  have hlt : ∀ r ∈ chain.visited, r < (Array.replicate chain.rows texture).size := fun r hr => by
    rw [Array.size_replicate]
    exact LiveChain.lt_rows_of_mem_visited hr
  have hwrote := foldlM_setIfInBounds_wrote (f := fun r => do find (← rowOf units r))
    chain.visited_nodup hlt (by simpa only [bind_assoc] using h)
  intro r hr
  obtain ⟨_, y, -, hy, hget⟩ := hwrote.live r hr
  obtain ⟨unit, hunit, hy⟩ := Outcome.bind_eq_ok.1 hy
  exact ⟨unit, y, Sweep.rowOf_eq_ok.1 hunit, hy, hget⟩

theorem resolve_atRow {α : Type} {chain : LiveChain} {first : Nat} {units : Array Int32}
    {find : Int32 → Outcome α} {bound : Array α}
    (h : resolve chain first units find = .ok bound) {r : Nat} (hr : r ∈ chain.visited) :
    resolve .single 0 (rowSlice units r) find = .ok (rowSlice bound r) := by
  obtain ⟨unit, texture, hunit, htexture, hbound⟩ := resolve_eq_ok h r hr
  have hread : rowOf (rowSlice units r) 0 = .ok unit := by
    rw [rowOf_rowSlice, Sweep.rowOf_eq_ok, hunit]
  have hslice : rowSlice bound r = #[texture] := by
    rw [rowSlice, hbound]
    rfl
  rw [resolve, hread, Outcome.ok_bind, htexture, Outcome.ok_bind, LiveChain.visited_single,
    List.foldlM_cons, hread, Outcome.ok_bind, htexture, Outcome.ok_bind, hslice,
    LiveChain.rows_single]
  rfl

theorem resolve_restrict {α : Type} {chain : LiveChain} {first : Nat}
    (hfirst : first ∈ chain.visited) (units : Array Int32) (zero : Int32)
    (find : Int32 → Outcome α) :
    resolve chain first (restrictColumn chain zero units) find =
      resolve chain first units find := by
  unfold resolve
  rw [rowOf_restrictColumn units hfirst]
  refine congrArg _ (funext fun unit => congrArg _ (funext fun texture => ?_))
  exact Outcome.foldlM_congr (fun r hr bound => by rw [rowOf_restrictColumn units hr]) _

/-! ## Colours -/

section Colours

variable {how : Addressing} {inv : Invocation} {textures : TextureUnits}

theorem sampleRows_atRow (hc : inv.chain.Closed) {first : Nat} {units : Array Int32}
    {coords : Register} {colours : Array Rgba}
    (h : sampleRows how inv textures first units coords = .ok colours) {r : Nat}
    (hr : r ∈ inv.chain.visited) (paths : VectorPaths) :
    sampleRows how ⟨.one paths, inv.textures⟩ textures 0 (rowSlice units r) (coords.atRow r) =
      .ok (rowSlice colours r) := by
  have hblank : rowSlice (Array.replicate inv.chain.rows (default : Rgba)) r =
      Array.replicate (Sweep.one paths).chain.rows default := by
    rw [rowSlice_replicate (LiveChain.lt_rows_of_mem_visited hr), Sweep.one,
      LiveChain.rows_single]
  unfold sampleRows at h ⊢
  obtain ⟨x, hx, h⟩ := Outcome.bind_eq_ok.1 h
  obtain ⟨y, hy, h⟩ := Outcome.bind_eq_ok.1 h
  rw [Register.lane_atRow hx, Outcome.ok_bind, Register.lane_atRow hy, Outcome.ok_bind]
  cases how with
  | flat =>
    obtain ⟨bound, hbound, h⟩ := Outcome.bind_eq_ok.1 h
    refine Outcome.bind_eq_ok.2 ⟨_, resolve_atRow hbound hr, ?_⟩
    rw [← hblank]
    exact Sweep.map_slice hc hr paths h fun c hcolour => by
      simpa only [rowOf_rowSlice] using hcolour
  | projective =>
    obtain ⟨bound, hbound, h⟩ := Outcome.bind_eq_ok.1 h
    obtain ⟨q, hq, h⟩ := Outcome.bind_eq_ok.1 h
    refine Outcome.bind_eq_ok.2 ⟨_, resolve_atRow hbound hr, ?_⟩
    refine Outcome.bind_eq_ok.2 ⟨_, Register.lane_atRow hq r, ?_⟩
    rw [← hblank]
    exact Sweep.map_slice hc hr paths h fun c hcolour => by
      simpa only [rowOf_rowSlice] using hcolour
  | cube =>
    obtain ⟨bound, hbound, h⟩ := Outcome.bind_eq_ok.1 h
    obtain ⟨z, hz, h⟩ := Outcome.bind_eq_ok.1 h
    refine Outcome.bind_eq_ok.2 ⟨_, resolve_atRow hbound hr, ?_⟩
    refine Outcome.bind_eq_ok.2 ⟨_, Register.lane_atRow hz r, ?_⟩
    rw [← hblank]
    exact Sweep.map_slice hc hr paths h fun c hcolour => by
      simpa only [rowOf_rowSlice] using hcolour

theorem map_congr {β : Type} {f g : Nat → Outcome β} (h : ∀ r ∈ inv.chain.visited, f r = g r)
    (out : Array β) : inv.map f out = inv.map g out := by
  by_cases hc : inv.chain.Closed
  · exact Sweep.apply_congr hc (fun r hr _ => h r hr) out
  · exact (Sweep.apply_stray hc _ out).trans (Sweep.apply_stray hc _ out).symm

theorem sampleRows_restrict {first : Nat} (hfirst : first ∈ inv.chain.visited)
    (units : Array Int32) (zero : Int32) (coords : Register) :
    sampleRows how inv textures first (restrictColumn inv.chain zero units)
        (coords.restrict inv.chain) =
      sampleRows how inv textures first units coords := by
  unfold sampleRows
  simp only [Register.lane_restrict, Outcome.map_bind, resolve_restrict hfirst]
  refine congrArg _ (funext fun x => congrArg _ (funext fun y => ?_))
  cases how with
  | flat =>
    refine congrArg _ (funext fun bound => map_congr (fun r hr => ?_) _)
    simp only [rowOf_restrictColumn _ hr]
  | projective =>
    refine congrArg _ (funext fun bound => congrArg _ (funext fun q =>
      map_congr (fun r hr => ?_) _))
    simp only [rowOf_restrictColumn _ hr]
  | cube =>
    refine congrArg _ (funext fun bound => congrArg _ (funext fun z =>
      map_congr (fun r hr => ?_) _))
    simp only [rowOf_restrictColumn _ hr]

end Colours

/-! ## Lookups -/

section Lookups

variable {how : Addressing} {inv : Invocation} {sampler coords out out' : Register}

/-- A lookup that succeeds with a live row: units and textures were there, and the colours. -/
theorem lookUp_eq_ok {first : Nat} {rest : List Nat} (hv : inv.chain.visited = first :: rest) :
    (lookUp how inv sampler coords).run out = .ok () out' ↔
      ∃ units textures colours, sampler.lane .int 0 = .ok units ∧ inv.textures = some textures ∧
        sampleRows how inv textures first units coords = .ok colours ∧
        (writeColours inv colours).run out = .ok () out' := by
  unfold lookUp
  rw [hv]
  dsimp only
  constructor
  · intro h
    obtain ⟨units, _, hlane, hrest⟩ := Stateful.run_bind_eq_ok.1 h
    obtain ⟨hunits, rfl⟩ := Stateful.run_ofExcept_eq_ok.1 hlane
    cases htextures : inv.textures with
    | none =>
      rw [htextures] at hrest
      obtain ⟨_, _, -, hthrow⟩ := Stateful.run_bind_eq_ok.1 hrest
      cases hthrow
    | some textures =>
      rw [htextures] at hrest
      obtain ⟨colours, _, hsample, hwrite⟩ := Stateful.run_bind_eq_ok.1 hrest
      obtain ⟨hcolours, rfl⟩ := Stateful.run_ofExcept_eq_ok.1 hsample
      exact ⟨units, textures, colours, hunits, rfl, hcolours, hwrite⟩
  · rintro ⟨units, textures, colours, hunits, htextures, hcolours, h⟩
    refine Stateful.run_bind_eq_ok.2 ⟨units, out, Stateful.run_ofExcept_eq_ok.2 ⟨hunits, rfl⟩, ?_⟩
    rw [htextures]
    exact Stateful.run_bind_eq_ok.2 ⟨colours, out,
      Stateful.run_ofExcept_eq_ok.2 ⟨hcolours, rfl⟩, h⟩

theorem run_modify_eq_ok {k : Kind} {i : Nat} {f : Array k.Elem → Outcome (Array k.Elem)}
    {x y : Register} :
    (Register.modify k i f).run x = .ok () y ↔ x.modifyLane k i f = .ok y := by
  constructor
  · intro h
    obtain ⟨_, _, hget, h⟩ := Stateful.run_bind_eq_ok.1 h
    cases hget
    obtain ⟨new, _, hnew, h⟩ := Stateful.run_bind_eq_ok.1 h
    cases h
    exact (Stateful.run_ofExcept_eq_ok.1 hnew).1
  · intro h
    exact Stateful.run_bind_eq_ok.2 ⟨x, x, rfl, Stateful.run_bind_eq_ok.2
      ⟨y, x, Stateful.run_ofExcept_eq_ok.2 ⟨h, rfl⟩, rfl⟩⟩

theorem kept_writeColours (hc : inv.chain.Closed) {colours : Array Rgba}
    (h : (writeColours inv colours).run out = .ok () out') :
    Register.Kept inv.chain out out' :=
  Stateful.forM_keeps (P := Register.Kept inv.chain out)
    (fun _ _ _ _ hx h => hx.trans (Register.kept_modifyLane (run_modify_eq_ok.1 h)
      fun _ _ h => Register.kept_apply (s := inv.toSweep) hc h))
    (.refl _ _) h

theorem writeColours_atRow (hc : inv.chain.Closed) {colours : Array Rgba}
    (h : (writeColours inv colours).run out = .ok () out') {r : Nat}
    (hr : r ∈ inv.chain.visited) (paths : VectorPaths) :
    (writeColours ⟨.one paths, inv.textures⟩ (rowSlice colours r)).run (out.atRow r) =
      .ok () (out'.atRow r) :=
  Stateful.forM_map_state (φ := (Register.atRow · r))
    (fun _ _ _ _ h => run_modify_eq_ok.2 (Register.modifyLane_atRow (run_modify_eq_ok.1 h)
      fun _ _ h => Sweep.map1_slice (s := inv.toSweep) hc hr paths h))
    h

theorem kept_lookUp (hc : inv.chain.Closed)
    (h : (lookUp how inv sampler coords).run out = .ok () out') :
    Register.Kept inv.chain out out' := by
  cases hv : inv.chain.visited with
  | nil =>
    rw [lookUp, hv] at h
    cases h
    exact .refl _ _
  | cons first rest =>
    obtain ⟨_, _, _, -, -, -, h⟩ := (lookUp_eq_ok hv).1 h
    exact kept_writeColours hc h

theorem lookUp_atRow (hc : inv.chain.Closed)
    (h : (lookUp how inv sampler coords).run out = .ok () out') {r : Nat}
    (hr : r ∈ inv.chain.visited) (paths : VectorPaths) :
    (lookUp how ⟨.one paths, inv.textures⟩ (sampler.atRow r) (coords.atRow r)).run
      (out.atRow r) = .ok () (out'.atRow r) := by
  cases hv : inv.chain.visited with
  | nil =>
    rw [hv] at hr
    cases hr
  | cons first rest =>
    obtain ⟨units, textures, colours, hunits, htextures, hcolours, h⟩ := (lookUp_eq_ok hv).1 h
    exact (lookUp_eq_ok LiveChain.visited_single).2 ⟨_, textures, _,
      Register.lane_atRow hunits r, htextures, sampleRows_atRow hc hcolours hr paths,
      writeColours_atRow hc h hr paths⟩

theorem lookUp_restrict (sampler coords : Register) :
    lookUp how inv (sampler.restrict inv.chain) (coords.restrict inv.chain) =
      lookUp how inv sampler coords := by
  unfold lookUp
  cases hv : inv.chain.visited with
  | nil => rfl
  | cons first rest =>
    have hfirst : first ∈ inv.chain.visited := by
      rw [hv]
      exact List.mem_cons_self
    dsimp only
    rw [Register.lane_restrict]
    cases sampler.lane .int 0 with
    | error e => rfl
    | ok units =>
      cases inv.textures with
      | none =>
        change (ofExcept (rowOf (restrictColumn inv.chain Kind.int.zero units) first) >>=
          fun unit => throw (.error (.textureUnit unit how.samplerType)) :
            Register.Writer Unit) = _
        rw [rowOf_restrictColumn units hfirst]
        rfl
      | some textures =>
        change (ofExcept (sampleRows how inv textures first
          (restrictColumn inv.chain Kind.int.zero units) (coords.restrict inv.chain)) >>=
            writeColours inv) = _
        rw [sampleRows_restrict hfirst units]
        rfl

end Lookups

/-- The arguments of a texture lookup that succeeds. -/
theorem textureLookup_eq_ok {s : Signature} {how : Addressing} {inv : Invocation}
    {args : List Register} {out out' : Register}
    (h : (execute ⟨s, textureLookup how s⟩ inv args).run out = .ok () out') :
    checkCall ⟨s, textureLookup how s⟩ inv args out = .ok () ∧
      ∃ sampler coords rest, args = sampler :: coords :: rest ∧ rest.length ≤ 1 ∧
        (lookUp how inv sampler coords).run out = .ok () out' := by
  obtain ⟨run, hrun, hcheck, h⟩ := execute_eq_ok.1 h
  cases hrun
  refine ⟨hcheck, ?_⟩
  match args with
  | [sampler, coords] => exact ⟨sampler, coords, [], rfl, Nat.zero_le 1, h⟩
  | [sampler, coords, bias] => exact ⟨sampler, coords, [bias], rfl, Nat.le_refl 1, h⟩
  | [] | [_] | _ :: _ :: _ :: _ :: _ => cases h

theorem run_textureLookup {s : Signature} {how : Addressing} {inv : Invocation}
    {sampler coords : Register} {rest : List Register} (hrest : rest.length ≤ 1)
    {out out' : Register}
    (hcheck : checkCall ⟨s, textureLookup how s⟩ inv (sampler :: coords :: rest) out = .ok ())
    (h : (lookUp how inv sampler coords).run out = .ok () out') :
    (execute ⟨s, textureLookup how s⟩ inv (sampler :: coords :: rest)).run out =
      .ok () out' := by
  refine execute_eq_ok.2 ⟨_, rfl, hcheck, ?_⟩
  match rest, hrest with
  | [], _ | [_], _ => exact h

theorem rowWise_textureLookup (s : Signature) (how : Addressing) :
    RowWise ⟨s, textureLookup how s⟩ where
  kept hc _ _ hrun := by
    obtain ⟨-, _, _, _, -, -, h⟩ := textureLookup_eq_ok hrun
    exact kept_lookUp hc h
  atRow {inv args out out'} hc hargs hout hrun r hr paths := by
    have hfits := fits_of_execute hargs hout hrun
    obtain ⟨-, sampler, coords, rest, rfl, hrest, h⟩ := textureLookup_eq_ok hrun
    have hfits₁ : Fits s (Sweep.one paths).chain.rows
        ((sampler :: coords :: rest).map (·.atRow r)) (out.atRow r) :=
      hfits.atRow (LiveChain.lt_rows_of_mem_visited hr)
    have hcheck₁ : checkCall ⟨s, textureLookup how s⟩ ⟨.one paths, inv.textures⟩
        ((sampler :: coords :: rest).map (·.atRow r)) (out.atRow r) = .ok () :=
        Fits.checkCall hfits₁
    exact run_textureLookup (by rwa [List.length_map]) hcheck₁ (lookUp_atRow hc h hr paths)
  congr {inv args args' out out'} hc hargs hargs' hout hsame hrun := by
    obtain ⟨hcheck, sampler, coords, rest, rfl, hrest, h⟩ := textureLookup_eq_ok hrun
    match args' with
    | [] | [_] => simp at hsame
    | sampler' :: coords' :: rest' =>
      have hcheck' : checkCall ⟨s, textureLookup how s⟩ inv (sampler' :: coords' :: rest') out =
          .ok () := by
        obtain ⟨hparams, hresult, hrows⟩ := checkCall_eq_ok.1 hcheck
        refine checkCall_eq_ok.2 ⟨(types_eq_of_restrict hsame).trans hparams, hresult, ?_⟩
        rw [List.forall_mem_append] at hrows ⊢
        exact ⟨forall_rows_of_restrict hsame hrows.1, hrows.2⟩
      simp only [List.map_cons, List.cons.injEq] at hsame
      obtain ⟨hsampler, hcoords, hrest'⟩ := hsame
      refine run_textureLookup ?_ hcheck' ?_
      · have := congrArg List.length hrest'
        rw [List.length_map, List.length_map] at this
        omega
      · rw [← lookUp_restrict, ← hsampler, ← hcoords, lookUp_restrict]
        exact h

/-- Every overload of the catalogue treats the rows of a batch one by one. -/
theorem Catalogued.rowWise {b : Builtin} (h : Catalogued b) : RowWise b := by
  cases h with
  | agree _ h => exact h.rowWise
  | texture hs => exact rowWise_textureLookup _ _
  | missing s => exact rowWise_missing s

end BatchShader.Builtin
