import BatchShader.Proofs.Builtin.Sums

/-
  Agreement of the slots for `normalize`, `faceforward` and `cross`.
-/

namespace BatchShader.Builtin

/-! ## Directions scaled by a sum -/

/-- What a signature has to be like for a function of `n` directions. -/
def DirectionFits (n : Nat) (s : Signature) : Prop :=
  s.params = List.replicate n s.result ∧ s.result.kind? = some .float

instance (n : Nat) (s : Signature) : Decidable (DirectionFits n s) :=
  inferInstanceAs (Decidable (_ ∧ _))

theorem DirectionFits.type_eq {n : Nat} {s : Signature} (hs : DirectionFits n s) {rows : Nat}
    {args : List Register} {out : Register} (hfits : Fits s rows args out) {x : Register}
    (hx : x ∈ args) : x.type = s.result := by
  have hmem := List.mem_map_of_mem (f := Register.type) hx
  rw [hfits.params, hs.1] at hmem
  exact List.eq_of_mem_replicate hmem

theorem DirectionFits.length_args {n : Nat} {s : Signature} (hs : DirectionFits n s) {rows : Nat}
    {args : List Register} {out : Register} (hfits : Fits s rows args out) : args.length = n := by
  rw [← List.length_map Register.type, hfits.params, hs.1, List.length_replicate]

/-- A row of a direction, as its value and as a list of components. -/
theorem DirectionFits.exists_rowElems {n : Nat} {s : Signature} (hs : DirectionFits n s)
    {rows : Nat} {args : List Register} {out : Register} (hfits : Fits s rows args out)
    {x : Register} (hx : x ∈ args) {r : Nat} (hr : r < rows) :
    ∃ v es, x.rowValue? r = some v ∧ elems .float v = .ok es ∧ x.Holds .float r es ∧
      es.length = s.result.components := by
  rw [← hs.type_eq hfits hx]
  exact Builtin.exists_rowElems (hfits.args_wellFormed x hx) (by rw [hs.type_eq hfits hx, hs.2])
    (hfits.args_rows x hx ▸ hr)

theorem slotsAgree_normalize {s : Signature} (hs : DirectionFits 1 s) :
    SlotsAgree ⟨s, normalize s⟩ := by
  refine slotsAgree_both hs.2 fun inv args out hc hfits => ?_
  obtain ⟨x, rfl⟩ := List.length_eq_one_iff.1 (hs.length_args hfits)
  obtain ⟨out', hrun, hwritten⟩ := exists_scaled_written Binary32.dotStep Binary32.sqrt (· / ·)
    hc hfits hs.2 (fun y hy => hs.type_eq hfits hy) (x := x) (p := x) (q := x)
    List.mem_cons_self List.mem_cons_self List.mem_cons_self
  refine ⟨out', _, hrun, hwritten, fun r hr => ?_⟩
  obtain ⟨v, es, hv, hes, hholds, hlen⟩ := hs.exists_rowElems hfits (x := x) List.mem_cons_self
    (LiveChain.lt_rows_of_mem_visited hr)
  have htype := hs.type_eq hfits (x := x) List.mem_cons_self
  refine ⟨[v], es.map (· / sumElems es es Binary32.dotStep Binary32.sqrt), by simp [hv], ?_,
    by rw [List.length_map, hlen], fun i e he old => ?_⟩
  · dsimp only
    rw [hes, Outcome.ok_bind]
  · exact scaledStep_eq_ok _ _ _ hholds hholds hholds (hlen.trans (by rw [htype]))
      (hlen.trans (by rw [htype])) (components_pos (htype ▸ hs.2)) he old

theorem slotsAgree_faceforward {s : Signature} (hs : DirectionFits 3 s) :
    SlotsAgree ⟨s, faceforward s⟩ := by
  refine slotsAgree_both hs.2 fun inv args out hc hfits => ?_
  obtain ⟨n, i, p, rfl⟩ := List.length_eq_three.1 (hs.length_args hfits)
  have hn : n ∈ [n, i, p] := by simp
  have hi : i ∈ [n, i, p] := by simp
  have hp : p ∈ [n, i, p] := by simp
  obtain ⟨out', hrun, hwritten⟩ := exists_scaled_written Binary32.dotStep id Binary32.faceToward
    hc hfits hs.2 (fun y hy => hs.type_eq hfits hy) hn hp hi
  refine ⟨out', _, hrun, hwritten, fun r hr => ?_⟩
  have hlt := LiveChain.lt_rows_of_mem_visited hr
  obtain ⟨vn, ns, hvn, hns, hholdsn, -⟩ := hs.exists_rowElems hfits hn hlt
  obtain ⟨vi, is, hvi, his, hholdsi, hleni⟩ := hs.exists_rowElems hfits hi hlt
  obtain ⟨vp, ps, hvp, hps, hholdsp, hlenp⟩ := hs.exists_rowElems hfits hp hlt
  have htype := hs.type_eq hfits hp
  refine ⟨[vn, vi, vp], ns.map (Binary32.faceToward · (sumElems ps is Binary32.dotStep id)),
    by simp [hvn, hvi, hvp], ?_, ?_, fun j e he old => ?_⟩
  · dsimp only
    rw [hps, Outcome.ok_bind, his, Outcome.ok_bind, hns, Outcome.ok_bind]
  · rw [List.length_map, ← hs.type_eq hfits hn, hholdsn.length_eq,
      (hfits.args_wellFormed n hn).length_lanes]
  · exact scaledStep_eq_ok _ _ _ hholdsn hholdsp hholdsi (hlenp.trans (by rw [htype]))
      (hleni.trans (by rw [htype])) (components_pos (htype ▸ hs.2)) he old

/-! ## The cross product -/

/-- Which components of the operands make up component `i` of a cross product. -/
def crossPair : Nat → Nat × Nat
  | 0 => (1, 2)
  | 1 => (2, 0)
  | _ => (0, 1)

/-- What `cross` computes for component `i` at a row. -/
def crossStep (x y : Register) (i : Nat) : RowStep Binary32 := fun r _ => do
  return Binary32.crossTerm (← x.readRow .float (crossPair i).1 r)
    (← y.readRow .float (crossPair i).2 r) (← y.readRow .float (crossPair i).1 r)
    (← x.readRow .float (crossPair i).2 r)

theorem crossPair_lt (i : Nat) : (crossPair i).1 < 3 ∧ (crossPair i).2 < 3 := by
  unfold crossPair
  split <;> decide

/-- What a signature has to be like for `cross`. -/
def CrossFits (s : Signature) : Prop := s.params = [.vec3, .vec3] ∧ s.result = .vec3

instance (s : Signature) : Decidable (CrossFits s) := inferInstanceAs (Decidable (_ ∧ _))

theorem exists_cross_written {inv : Invocation} (hc : inv.chain.Closed) {x y out : Register}
    (hx : x.WellFormed) (hy : y.WellFormed) (hout : out.WellFormed) (htx : x.type = .vec3)
    (hty : y.type = .vec3) (htout : out.type = .vec3) (hrx : x.rows = inv.chain.rows)
    (hry : y.rows = inv.chain.rows) (hrout : out.rows = inv.chain.rows) :
    ∃ out', ((List.range out.type.components).forM fun i => do
        let xj ← ofExcept (x.lane .float (crossPair i).1)
        let yk ← ofExcept (y.lane .float (crossPair i).2)
        let yj ← ofExcept (y.lane .float (crossPair i).1)
        let xk ← ofExcept (x.lane .float (crossPair i).2)
        Register.modify .float i fun out =>
          inv.map4 xj yk yj xk out Binary32.crossTerm).run out = .ok () out' ∧
      Register.Written inv.chain .float (crossStep x y) out out' := by
  refine Register.exists_forM_written _ _ hout (by rw [htout]; rfl) fun i _ z old hz hold => ?_
  have hlane : ∀ {w : Register}, w.WellFormed → w.type = .vec3 → w.rows = inv.chain.rows →
      ∀ j < 3, ∃ column, w.lane .float j = .ok column ∧ column.size = inv.chain.rows := by
    intro w hw ht hr j hj
    rw [← hr]
    exact hw.exists_lane (by rw [ht]; rfl) (by rw [ht]; exact hj)
  obtain ⟨xj, hxj, hsxj⟩ := hlane hx htx hrx _ (crossPair_lt i).1
  obtain ⟨yk, hyk, hsyk⟩ := hlane hy hty hry _ (crossPair_lt i).2
  obtain ⟨yj, hyj, hsyj⟩ := hlane hy hty hry _ (crossPair_lt i).1
  obtain ⟨xk, hxk, hsxk⟩ := hlane hx htx hrx _ (crossPair_lt i).2
  obtain ⟨new, hnew, hwrote⟩ := Sweep.exists_wrote (s := inv.toSweep) hc (crossStep x y i)
    (hold.trans hrout) fun r hr _ => by
      obtain ⟨a, ha⟩ := LiveChain.exists_getElem?_of_mem_visited hsxj hr
      obtain ⟨b, hb⟩ := LiveChain.exists_getElem?_of_mem_visited hsyk hr
      obtain ⟨c, hc⟩ := LiveChain.exists_getElem?_of_mem_visited hsyj hr
      obtain ⟨d, hd⟩ := LiveChain.exists_getElem?_of_mem_visited hsxk hr
      refine ⟨Binary32.crossTerm a b c d, ?_⟩
      rw [crossStep, Register.readRow_of_lane hxj, Register.readRow_of_lane hyk,
        Register.readRow_of_lane hyj, Register.readRow_of_lane hxk, Sweep.rowOf_eq_ok.2 ha,
        Sweep.rowOf_eq_ok.2 hb, Sweep.rowOf_eq_ok.2 hc, Sweep.rowOf_eq_ok.2 hd]
      rfl
  refine ⟨new, ?_, hwrote⟩
  refine Stateful.run_bind_eq_ok.2 ⟨xj, z, Stateful.run_ofExcept_eq_ok.2 ⟨hxj, rfl⟩, ?_⟩
  refine Stateful.run_bind_eq_ok.2 ⟨yk, z, Stateful.run_ofExcept_eq_ok.2 ⟨hyk, rfl⟩, ?_⟩
  refine Stateful.run_bind_eq_ok.2 ⟨yj, z, Stateful.run_ofExcept_eq_ok.2 ⟨hyj, rfl⟩, ?_⟩
  refine Stateful.run_bind_eq_ok.2 ⟨xk, z, Stateful.run_ofExcept_eq_ok.2 ⟨hxk, rfl⟩, ?_⟩
  refine Register.run_modify hz ?_
  rw [Sweep.map4, Sweep.map, ← hnew]
  unfold crossStep
  simp only [Register.readRow_of_lane hxj, Register.readRow_of_lane hyk,
    Register.readRow_of_lane hyj, Register.readRow_of_lane hxk]

theorem slotsAgree_cross {s : Signature} (hs : CrossFits s) : SlotsAgree ⟨s, cross s⟩ := by
  obtain ⟨hparams, hresult⟩ := hs
  refine slotsAgree_both (by rw [hresult]; rfl) fun inv args out hc hfits => ?_
  have hargs := hfits.params.trans hparams
  obtain ⟨x, y, rfl⟩ : ∃ x y, args = [x, y] := List.length_eq_two.1 (by
    simpa using congrArg List.length hargs)
  obtain ⟨htx, hty⟩ : x.type = .vec3 ∧ y.type = .vec3 := by simpa using hargs
  have htout := hfits.result.trans hresult
  have hx := hfits.args_wellFormed x (by simp)
  have hy := hfits.args_wellFormed y (by simp)
  have hrx := hfits.args_rows x (by simp)
  have hry := hfits.args_rows y (by simp)
  obtain ⟨out', hrun, hwritten⟩ := exists_cross_written hc hx hy hfits.out_wellFormed htx hty
    htout hrx hry hfits.out_rows
  rw [htout] at hrun
  refine ⟨out', crossStep x y, hrun, hwritten, fun r hr => ?_⟩
  have hlt := LiveChain.lt_rows_of_mem_visited hr
  obtain ⟨v, xs, hv, hxs, hholdsx, hlenx⟩ :=
    exists_rowElems hx (k := .float) (by rw [htx]; rfl) (hrx ▸ hlt)
  obtain ⟨w, ys, hw, hys, hholdsy, hleny⟩ :=
    exists_rowElems hy (k := .float) (by rw [hty]; rfl) (hry ▸ hlt)
  rw [htx] at hlenx
  rw [hty] at hleny
  obtain ⟨x₀, x₁, x₂, rfl⟩ := List.length_eq_three.1 hlenx
  obtain ⟨y₀, y₁, y₂, rfl⟩ := List.length_eq_three.1 hleny
  refine ⟨[v, w], [Binary32.crossTerm x₁ y₂ y₁ x₂, Binary32.crossTerm x₂ y₀ y₂ x₀,
    Binary32.crossTerm x₀ y₁ y₀ x₁], by simp [hv, hw], ?_, by rw [hresult]; rfl,
    fun i e he old => ?_⟩
  · dsimp only
    rw [hxs, Outcome.ok_bind, hys, hresult]
    rfl
  · have hi : i < 3 := (List.getElem?_eq_some_iff.1 he).1
    have hread : ∀ j < 3, x.readRow .float j r = Outcome.require [x₀, x₁, x₂][j]? ∧
        y.readRow .float j r = Outcome.require [y₀, y₁, y₂][j]? := by
      intro j hj
      constructor
      · rw [List.getElem?_eq_getElem (by exact hj), Outcome.require_some]
        exact hholdsx.readRow (List.getElem?_eq_getElem hj)
      · rw [List.getElem?_eq_getElem (by exact hj), Outcome.require_some]
        exact hholdsy.readRow (List.getElem?_eq_getElem hj)
    obtain ⟨hj, hk⟩ := crossPair_lt i
    rw [crossStep, (hread _ hj).1, (hread _ hj).2, (hread _ hk).1, (hread _ hk).2]
    match i, hi with
    | 0, _ | 1, _ | 2, _ =>
      cases he
      rfl

end BatchShader.Builtin
