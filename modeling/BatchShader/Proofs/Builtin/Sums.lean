import BatchShader.Builtin.Geometric
import BatchShader.Proofs.Builtin.Slots
import Mathlib.Data.List.Basic

/-
  Agreement of the slots for the builtins that combine components.

  Over a batch a sum is built up in a column, one sweep for each component and the last one fused
  with what follows (`sumStep`); on constants it is a fold over a list (`sumStep_eq_ok`). The other
  builtins of this kind use such a sum as one more operand.
-/

namespace BatchShader

/-! ## Reading a row of a lane -/

namespace Register

/-- The component at a row of lane `i`, which has to be of kind `k`. -/
def readRow (x : Register) (k : Kind) (i r : Nat) : Outcome k.Elem := do rowOf (← x.lane k i) r

variable {x : Register} {k : Kind} {i r : Nat}

theorem readRow_of_lane {column : Array k.Elem} (h : x.lane k i = .ok column) (r : Nat) :
    x.readRow k i r = rowOf column r := by
  rw [readRow, h, Outcome.ok_bind]

theorem Holds.readRow {es : List k.Elem} (h : x.Holds k r es) {e : k.Elem}
    (he : es[i]? = some e) : x.readRow k i r = .ok e := by
  obtain ⟨column, hcolumn, hget⟩ := h.lane i e he
  rw [readRow_of_lane hcolumn, Sweep.rowOf_eq_ok, hget]

theorem WellFormed.exists_readRow (h : x.WellFormed) (hk : x.type.kind? = some k)
    (hi : i < x.type.components) (hr : r < x.rows) : ∃ e, x.readRow k i r = .ok e := by
  obtain ⟨column, hcolumn, hsize⟩ := h.exists_lane hk hi
  rw [readRow_of_lane hcolumn]
  exact ⟨_, Sweep.rowOf_eq_ok.2 (Array.getElem?_eq_getElem (by omega))⟩

/-- A result of one lane that was changed as a whole. -/
theorem written_setLane_zero {c : LiveChain} {step : RowStep k.Elem} {old new : Array k.Elem}
    (hlen : x.lanes.length = 1) (hold : x.lane k 0 = .ok old)
    (h : step.Wrote c.visited old new) :
    Written c k (fun _ => step) x (x.setLane 0 ⟨k, new⟩) where
  type_eq := rfl
  rows_eq := rfl
  length_eq := by simp [setLane]
  lane i hi := by
    obtain rfl : i = 0 := by omega
    exact ⟨old, new, hold, lane_setLane_self hold, h⟩

end Register

namespace Builtin

/-! ## Joining the components of one argument -/

section Reduce

variable {k : Kind} (op : k.Elem → k.Elem → k.Elem)

/-- What `reduce` computes at a row. -/
def reduceStep (x : Register) : RowStep k.Elem := fun r _ => do
  let first ← x.readRow k 0 r
  (List.range' 1 (x.type.components - 1)).foldlM
    (fun acc i => return op acc (← x.readRow k i r)) first

theorem reduceStep_eq_ok {x : Register} {r : Nat} {first : k.Elem} {rest : List k.Elem}
    (h : x.Holds k r (first :: rest)) (hlen : (first :: rest).length = x.type.components)
    (old : k.Elem) : reduceStep op x r old = .ok (rest.foldl op first) := by
  have htake : ∀ m ≤ rest.length, (List.range' 1 m).foldlM
      (fun acc i => return op acc (← x.readRow k i r)) first =
        (.ok ((rest.take m).foldl op first) : Outcome k.Elem) := by
    intro m hm
    induction m with
    | zero => rfl
    | succ m ih =>
      have hread : x.readRow k (1 + m) r = .ok rest[m] := h.readRow <| by
        rw [Nat.add_comm, List.getElem?_cons_succ, List.getElem?_eq_getElem hm]
      rw [List.range'_1_concat, List.foldlM_append, ih (by omega), Outcome.ok_bind,
        List.foldlM_cons, hread, List.take_succ_eq_append_getElem hm, List.foldl_append]
      rfl
  rw [reduceStep, h.readRow rfl, Outcome.ok_bind, ← hlen]
  exact (htake rest.length (Nat.le_refl _)).trans (by rw [List.take_length])

theorem exists_reduce_wrote {inv : Invocation} (hc : inv.chain.Closed) {x : Register}
    (hx : x.WellFormed) (hk : x.type.kind? = some k) (hrows : x.rows = inv.chain.rows)
    {old : Array k.Elem} (hold : old.size = inv.chain.rows) :
    ∃ first new, (do inv.map1 (← x.lane k 0) old id) = .ok first ∧
      (List.range' 1 (x.type.components - 1)).foldlM
        (fun acc i => do inv.update1 acc (← x.lane k i) op) first = .ok new ∧
      (reduceStep op x).Wrote inv.chain.visited old new := by
  obtain ⟨column, hcolumn, hsize⟩ := hx.exists_lane hk (components_pos hk)
  obtain ⟨first, hfirst, hstart⟩ := Sweep.exists_wrote (s := inv.toSweep) hc
    (fun r _ => x.readRow k 0 r) hold fun r hr _ =>
      hx.exists_readRow hk (components_pos hk) (hrows ▸ LiveChain.lt_rows_of_mem_visited hr)
  obtain ⟨new, hnew, hrest⟩ := RowStep.exists_foldlM_wrote
    (l := List.range' 1 (x.type.components - 1))
    (fun acc i => do inv.update1 acc (← x.lane k i) op)
    (fun i r acc => return op acc (← x.readRow k i r))
    (fun i hi a ha => by
      rw [List.mem_range'_1] at hi
      obtain ⟨column, hcolumn, -⟩ := hx.exists_lane hk (i := i) (by omega)
      rw [hcolumn, Outcome.ok_bind]
      simp only [Register.readRow_of_lane hcolumn]
      refine Sweep.exists_wrote (s := inv.toSweep) hc _ ha fun r hr acc => ?_
      obtain ⟨e, he⟩ := hx.exists_readRow (i := i) hk (by omega)
        (hrows ▸ LiveChain.lt_rows_of_mem_visited hr)
      rw [Register.readRow_of_lane hcolumn] at he
      exact ⟨_, by rw [he]; rfl⟩)
    (hstart.size_eq.trans hold) fun r (hr : r ∈ inv.chain.visited) =>
      LiveChain.lt_rows_of_mem_visited hr
  refine ⟨first, new, ?_, hnew, hstart.comp hrest⟩
  rw [hcolumn, Outcome.ok_bind, Sweep.map1, Sweep.map, ← hfirst]
  simp only [Register.readRow_of_lane hcolumn, id, bind_pure]

/-- What a signature has to be like for `reduce`. -/
def ReduceFits (k : Kind) (s : Signature) : Prop :=
  s.params.map ShaderType.kind? = [some k] ∧ s.result.kind? = some k ∧ s.result.components = 1

instance (k : Kind) (s : Signature) : Decidable (ReduceFits k s) :=
  inferInstanceAs (Decidable (_ ∧ _ ∧ _))

theorem exists_reduce_run {s : Signature} (hs : ReduceFits k s) {inv : Invocation}
    (hc : inv.chain.Closed) {x out : Register} (hfits : Fits s inv.chain.rows [x] out) :
    ∃ old new, out.lane k 0 = .ok old ∧
      (execute ⟨s, reduce op s⟩ inv [x]).run out = .ok () (out.setLane 0 ⟨k, new⟩) ∧
      (reduceStep op x).Wrote inv.chain.visited old new := by
  obtain ⟨hparams, hresult, hone⟩ := hs
  rw [← hfits.params] at hparams
  have hk : x.type.kind? = some k := by simpa using hparams
  obtain ⟨old, hold, hsize⟩ := hfits.out_wellFormed.exists_lane (k := k) (i := 0)
    (by rw [hfits.result, hresult]) (by rw [hfits.result, hone]; exact Nat.one_pos)
  obtain ⟨first, new, hfirst, hnew, hwrote⟩ :=
    exists_reduce_wrote op hc (hfits.args_wellFormed x List.mem_cons_self) hk
      (hfits.args_rows x List.mem_cons_self) (hsize.trans hfits.out_rows)
  refine ⟨old, new, hold, (execute_of_check_ok rfl hfits.checkCall).trans ?_, hwrote⟩
  refine Stateful.run_bind_eq_ok.2 ⟨(), _, Register.run_modify hold hfirst, ?_⟩
  refine (Register.run_forM_modify (Register.lane_setLane_self hold) hnew).trans ?_
  rw [Register.setLane_setLane]

theorem slotsAgree_reduce {s : Signature} (hs : ReduceFits k s) :
    SlotsAgree ⟨s, reduce op s⟩ := by
  have ⟨hparams, hresult, hone⟩ := hs
  refine slotsAgree_both hresult fun inv args out hc hfits => ?_
  rw [← hfits.params, List.map_map] at hparams
  obtain ⟨x, rfl⟩ : ∃ x, args = [x] := List.length_eq_one_iff.1 (by
    simpa using congrArg List.length hparams)
  have hk : x.type.kind? = some k := by simpa using hparams
  obtain ⟨old, new, hold, hrun, hwrote⟩ := exists_reduce_run op hs hc hfits
  refine ⟨out.setLane 0 ⟨k, new⟩, fun _ => reduceStep op x,
    (execute_of_check_ok rfl hfits.checkCall).symm.trans hrun, ?_, fun r hr => ?_⟩
  · refine Register.written_setLane_zero ?_ hold hwrote
    rw [hfits.out_wellFormed.length_lanes, hfits.result, hone]
  · have hlt : r < x.rows := hfits.args_rows x List.mem_cons_self ▸
      LiveChain.lt_rows_of_mem_visited hr
    obtain ⟨v, es, hv, hes, hholds, hlen⟩ :=
      exists_rowElems (hfits.args_wellFormed x List.mem_cons_self) hk hlt
    match es with
    | [] => exact absurd hlen (Nat.ne_of_lt (components_pos hk))
    | first :: rest =>
      refine ⟨[v], [rest.foldl op first], ?_, ?_, by rw [hone]; rfl, fun i e he old => ?_⟩
      · rw [List.mapM_cons, hv]
        rfl
      · dsimp only
        rw [hes]
        rfl
      · obtain ⟨rfl, rfl⟩ : i = 0 ∧ e = rest.foldl op first := by
          cases i <;> simp_all
        exact reduceStep_eq_ok op hholds hlen old

end Reduce

/-! ## Sums over components -/

section Sums

variable (step : SumStep) (finish : Binary32 → Binary32)

/-- What a sum over component pairs comes to at a row. -/
def sumStep (x y : Register) : RowStep Binary32 := fun r _ =>
  (List.range x.type.components).foldlM
    (fun acc i => do
      let a ← x.readRow .float i r
      let b ← y.readRow .float i r
      return if i + 1 = x.type.components then finish (step acc a b) else step acc a b)
    Binary32.zero

/-- The fused last step makes the sum over a row the fold over its components. -/
theorem sumStep_eq_ok {x y : Register} {r : Nat} {xs ys : List Binary32}
    (hx : x.Holds .float r xs) (hy : y.Holds .float r ys) (hxs : xs.length = x.type.components)
    (hys : ys.length = x.type.components) (hpos : 0 < x.type.components) (old : Binary32) :
    sumStep step finish x y r old = .ok (sumElems xs ys step finish) := by
  obtain ⟨n, hn⟩ := Nat.exists_eq_succ_of_ne_zero (Nat.ne_of_gt hpos)
  have hzip : (xs.zip ys).length = n + 1 := by rw [List.length_zip, hxs, hys, hn, Nat.min_self]
  have hread : ∀ i (hi : i < (xs.zip ys).length),
      x.readRow .float i r = .ok (xs.zip ys)[i].1 ∧
        y.readRow .float i r = .ok (xs.zip ys)[i].2 := fun i hi => by
    rw [List.getElem_zip]
    exact ⟨hx.readRow (List.getElem?_eq_getElem (by omega)),
      hy.readRow (List.getElem?_eq_getElem (by omega))⟩
  -- up to the last component nothing is fused
  have htake : ∀ m ≤ n, (List.range m).foldlM
      (fun acc i => do
        let a ← x.readRow .float i r
        let b ← y.readRow .float i r
        return if i + 1 = n + 1 then finish (step acc a b) else step acc a b)
      Binary32.zero =
        (.ok (((xs.zip ys).take m).foldl (fun acc p => step acc p.1 p.2) .zero) :
          Outcome Binary32) := by
    intro m hm
    induction m with
    | zero => rfl
    | succ m ih =>
      obtain ⟨ha, hb⟩ := hread m (by omega)
      rw [List.range_succ, List.foldlM_append, ih (by omega), Outcome.ok_bind, List.foldlM_cons,
        ha, Outcome.ok_bind, hb, Outcome.ok_bind, if_neg (by omega),
        List.take_succ_eq_append_getElem (by omega), List.foldl_append]
      rfl
  have hsum : sumElems xs ys step finish =
      finish ((xs.zip ys).foldl (fun acc p => step acc p.1 p.2) .zero) := rfl
  have hlast : (xs.zip ys).foldl (fun acc p => step acc p.1 p.2) .zero =
      step (((xs.zip ys).take n).foldl (fun acc p => step acc p.1 p.2) .zero)
        (xs.zip ys)[n].1 (xs.zip ys)[n].2 := by
    conv_lhs =>
      rw [← List.take_length (l := xs.zip ys), hzip, List.take_succ_eq_append_getElem (by omega),
        List.foldl_append]
    rfl
  obtain ⟨ha, hb⟩ := hread n (by omega)
  rw [sumStep, hn, Nat.succ_eq_add_one, List.range_succ, List.foldlM_append,
    htake n (Nat.le_refl n), Outcome.ok_bind, List.foldlM_cons, ha, Outcome.ok_bind, hb,
    Outcome.ok_bind, if_pos rfl, hsum, hlast]
  rfl

theorem exists_sumLanes_wrote {s : Sweep} (hc : s.chain.Closed) {x y : Register}
    (hx : x.WellFormed) (hy : y.WellFormed) (hkx : x.type.kind? = some .float)
    (hky : y.type.kind? = some .float) (hxy : x.type.components = y.type.components)
    (hxrows : x.rows = s.chain.rows) (hyrows : y.rows = s.chain.rows) {old : Array Binary32}
    (hold : old.size = s.chain.rows) :
    ∃ new, sumLanes s x y step finish old = .ok new ∧
      (sumStep step finish x y).Wrote s.chain.visited old new := by
  have hpos := components_pos hkx
  obtain ⟨column, hcolumn, hsize⟩ := hx.exists_lane hkx hpos
  obtain ⟨first, hfirst, hstart⟩ := Sweep.exists_wrote hc
    (fun r _ => return (fun _ => Binary32.zero) (← rowOf column r)) hold
    fun r hr _ => by
      obtain ⟨e, he⟩ := LiveChain.exists_getElem?_of_mem_visited (hsize.trans hxrows) hr
      exact ⟨_, by rw [Sweep.rowOf_eq_ok.2 he]; rfl⟩
  obtain ⟨new, hnew, hrest⟩ := RowStep.exists_foldlM_wrote
    (l := List.range x.type.components)
    (fun acc i => do
      let a ← x.lane .float i
      let b ← y.lane .float i
      s.update2 acc a b fun r a b =>
        if i + 1 = x.type.components then finish (step r a b) else step r a b)
    (fun i r acc => do
      let a ← x.readRow .float i r
      let b ← y.readRow .float i r
      return if i + 1 = x.type.components then finish (step acc a b) else step acc a b)
    (fun i hi a ha => by
      rw [List.mem_range] at hi
      obtain ⟨xcol, hxcol, -⟩ := hx.exists_lane hkx hi
      obtain ⟨ycol, hycol, -⟩ := hy.exists_lane hky (i := i) (by omega)
      rw [hxcol, Outcome.ok_bind, hycol, Outcome.ok_bind]
      simp only [Register.readRow_of_lane hxcol, Register.readRow_of_lane hycol]
      refine Sweep.exists_wrote hc _ ha fun r hr acc => ?_
      have hlt := LiveChain.lt_rows_of_mem_visited hr
      obtain ⟨e, he⟩ := hx.exists_readRow hkx hi (hxrows ▸ hlt)
      obtain ⟨e', he'⟩ := hy.exists_readRow (i := i) hky (by omega) (hyrows ▸ hlt)
      rw [Register.readRow_of_lane hxcol] at he
      rw [Register.readRow_of_lane hycol] at he'
      exact ⟨_, by rw [he, Outcome.ok_bind, he']; rfl⟩)
    (hstart.size_eq.trans hold) fun r (hr : r ∈ s.chain.visited) =>
      LiveChain.lt_rows_of_mem_visited hr
  refine ⟨new, ?_, hrest.size_eq.trans hstart.size_eq, fun r hr => ?_, fun r hr => ?_⟩
  · rw [sumLanes, hcolumn, Outcome.ok_bind, Sweep.map1, Sweep.map, hfirst]
    exact hnew
  · -- whatever the column held before, the sum starts from zero
    obtain ⟨a, b, ha, hb, hget⟩ := hstart.live r hr
    obtain ⟨e, -, hb⟩ := Outcome.bind_eq_ok.1 hb
    obtain ⟨b', d, hb', hd, hget'⟩ := hrest.live r hr
    obtain rfl : b = b' := Option.some.inj (hget.symm.trans hb')
    rw [← Except.ok.inj hb] at hd
    exact ⟨a, d, ha, hd, hget'⟩
  · exact (hrest.dead r hr).trans (hstart.dead r hr)

/-- What a signature has to be like for a sum over the components of one argument or of two. -/
def PairSumFits (s : Signature) : Prop :=
  (s.params = [s.params.headD .void] ∨ s.params = [s.params.headD .void, s.params.headD .void]) ∧
    (s.params.headD .void).kind? = some .float ∧ s.result.kind? = some .float ∧
    s.result.components = 1

instance (s : Signature) : Decidable (PairSumFits s) :=
  inferInstanceAs (Decidable ((_ ∨ _) ∧ _ ∧ _ ∧ _))

/-- The operands of a sum, as registers and at a row. -/
theorem PairSumFits.exists_operands {s : Signature} (hs : PairSumFits s) {rows : Nat}
    {args : List Register} {out : Register} (hfits : Fits s rows args out) :
    ∃ x y, operandPair s args = .ok (x, y) ∧ x ∈ args ∧ y ∈ args ∧ x.type = y.type ∧
      x.type.kind? = some .float ∧ ∀ (r : Nat) (v w : Value), x.rowValue? r = some v →
        y.rowValue? r = some w → ∃ vs, args.mapM (·.rowValue? r) = some vs ∧
          operandPair s vs = .ok (v, w) := by
  obtain ⟨hparams, hkind, -⟩ := hs
  generalize s.params.headD .void = t at hparams hkind
  rcases hparams with hparams | hparams
  · have hargs := hfits.params.trans hparams
    obtain ⟨x, rfl⟩ : ∃ x, args = [x] := List.length_eq_one_iff.1 (by
      simpa using congrArg List.length hargs)
    obtain rfl : x.type = t := by simpa using hargs
    refine ⟨x, x, by simp [operandPair, hparams], by simp, by simp, rfl, hkind, ?_⟩
    intro r v w hv hw
    obtain rfl : v = w := Option.some.inj (hv.symm.trans hw)
    exact ⟨[v], by simp [hv], by simp [operandPair, hparams]⟩
  · have hargs := hfits.params.trans hparams
    obtain ⟨x, y, rfl⟩ : ∃ x y, args = [x, y] := List.length_eq_two.1 (by
      simpa using congrArg List.length hargs)
    obtain ⟨rfl, hy⟩ : x.type = t ∧ y.type = t := by simpa using hargs
    refine ⟨x, y, by simp [operandPair, hparams], by simp, by simp, hy.symm, hkind, ?_⟩
    intro r v w hv hw
    exact ⟨[v, w], by simp [hv, hw], by simp [operandPair, hparams]⟩

theorem exists_pairSum_run {s : Signature} (hs : PairSumFits s) {inv : Invocation}
    (hc : inv.chain.Closed) {args : List Register} {out : Register}
    (hfits : Fits s inv.chain.rows args out) {x y : Register}
    (hpair : operandPair s args = .ok (x, y)) (hx : x ∈ args) (hy : y ∈ args)
    (hxy : x.type = y.type) (hk : x.type.kind? = some .float) :
    ∃ old new, out.lane .float 0 = .ok old ∧
      (execute ⟨s, pairSum step finish s⟩ inv args).run out =
        .ok () (out.setLane 0 ⟨.float, new⟩) ∧
      (sumStep step finish x y).Wrote inv.chain.visited old new := by
  obtain ⟨hresult, hone⟩ := hs.2.2
  obtain ⟨old, hold, hsize⟩ := hfits.out_wellFormed.exists_lane (k := .float) (i := 0)
    (by rw [hfits.result, hresult]) (by rw [hfits.result, hone]; exact Nat.one_pos)
  obtain ⟨new, hnew, hwrote⟩ := exists_sumLanes_wrote step finish hc
    (hfits.args_wellFormed x hx) (hfits.args_wellFormed y hy) hk (hxy ▸ hk) (congrArg _ hxy)
    (hfits.args_rows x hx) (hfits.args_rows y hy) (hsize.trans hfits.out_rows)
  refine ⟨old, new, hold, (execute_of_check_ok rfl hfits.checkCall).trans ?_, hwrote⟩
  refine Stateful.run_bind_eq_ok.2 ⟨(x, y), out, ?_, Register.run_modify hold hnew⟩
  exact Stateful.run_ofExcept_eq_ok.2 ⟨hpair, rfl⟩

theorem slotsAgree_pairSum {s : Signature} (hs : PairSumFits s) :
    SlotsAgree ⟨s, pairSum step finish s⟩ := by
  obtain ⟨hresult, hone⟩ := hs.2.2
  refine slotsAgree_both hresult fun inv args out hc hfits => ?_
  obtain ⟨x, y, hpair, hx, hy, hxy, hk, hvalues⟩ := hs.exists_operands hfits
  have hky : y.type.kind? = some .float := by rw [← hxy, hk]
  obtain ⟨old, new, hold, hrun, hwrote⟩ :=
    exists_pairSum_run step finish hs hc hfits hpair hx hy hxy hk
  refine ⟨out.setLane 0 ⟨.float, new⟩, fun _ => sumStep step finish x y,
    (execute_of_check_ok rfl hfits.checkCall).symm.trans hrun, ?_, fun r hr => ?_⟩
  · refine Register.written_setLane_zero ?_ hold hwrote
    rw [hfits.out_wellFormed.length_lanes, hfits.result, hone]
  · have hlt := LiveChain.lt_rows_of_mem_visited hr
    obtain ⟨v, xs, hv, hxs, hholdsx, hlenx⟩ :=
      exists_rowElems (hfits.args_wellFormed x hx) hk (hfits.args_rows x hx ▸ hlt)
    obtain ⟨w, ys, hw, hys, hholdsy, hleny⟩ :=
      exists_rowElems (hfits.args_wellFormed y hy) hky (hfits.args_rows y hy ▸ hlt)
    obtain ⟨vs, hvs, hpairv⟩ := hvalues r v w hv hw
    refine ⟨vs, [sumElems xs ys step finish], hvs, ?_, by rw [hone]; rfl, fun i e he old => ?_⟩
    · dsimp only
      rw [hpairv, Outcome.ok_bind, hxs, Outcome.ok_bind, hys]
      rfl
    · obtain ⟨rfl, rfl⟩ : i = 0 ∧ e = sumElems xs ys step finish := by
        cases i <;> simp_all
      exact sumStep_eq_ok step finish hholdsx hholdsy hlenx (hleny.trans (by rw [hxy]))
        (components_pos hk) old

/-! ## A sum as one more operand -/

variable (op : Binary32 → Binary32 → Binary32)

/-- What a function of a component and a sum computes at a row. -/
def scaledStep (x p q : Register) (i : Nat) : RowStep Binary32 := fun r old => do
  let a ← x.readRow .float i r
  let d ← sumStep step finish p q r old
  return op a d

theorem scaledStep_eq_ok {x p q : Register} {r : Nat} {xs ps qs : List Binary32}
    (hx : x.Holds .float r xs) (hp : p.Holds .float r ps) (hq : q.Holds .float r qs)
    (hps : ps.length = p.type.components) (hqs : qs.length = p.type.components)
    (hpos : 0 < p.type.components) {i : Nat} {e : Binary32}
    (he : (xs.map (op · (sumElems ps qs step finish)))[i]? = some e) (old : Binary32) :
    scaledStep step finish op x p q i r old = .ok e := by
  obtain ⟨a, ha, rfl⟩ := Option.map_eq_some_iff.1 (List.getElem?_map ▸ he)
  rw [scaledStep, hx.readRow ha, Outcome.ok_bind, sumStep_eq_ok step finish hp hq hps hqs hpos]
  rfl

theorem exists_scaled_written {s : Signature} {inv : Invocation} (hc : inv.chain.Closed)
    {args : List Register} {out : Register} (hfits : Fits s inv.chain.rows args out)
    (hk : s.result.kind? = some .float) (hargs : ∀ x ∈ args, x.type = s.result)
    {x p q : Register} (hx : x ∈ args) (hp : p ∈ args) (hq : q ∈ args) :
    ∃ out', (do
        let d ← ofExcept <| sumLanes inv.toSweep p q step finish (Array.replicate x.rows .zero)
        (List.range s.result.components).forM fun i => do
          let xs ← ofExcept (x.lane .float i)
          Register.modify .float i fun out => inv.map2 xs d out op).run out = .ok () out' ∧
      Register.Written inv.chain .float (scaledStep step finish op x p q) out out' := by
  have hkind : ∀ y ∈ args, y.type.kind? = some .float := fun y hy => by rw [hargs y hy, hk]
  have hzeros : (Array.replicate x.rows Binary32.zero).size = inv.chain.rows := by
    rw [Array.size_replicate, hfits.args_rows x hx]
  obtain ⟨d, hd, hdwrote⟩ := exists_sumLanes_wrote step finish (s := inv.toSweep) hc
    (hfits.args_wellFormed p hp) (hfits.args_wellFormed q hq) (hkind p hp) (hkind q hq)
    (by rw [hargs p hp, hargs q hq]) (hfits.args_rows p hp) (hfits.args_rows q hq) hzeros
  have hdrow : ∀ r ∈ inv.chain.visited, ∀ old, sumStep step finish p q r old = rowOf d r := by
    intro r hr old
    obtain ⟨_, b, -, hb, hget⟩ := hdwrote.live r hr
    exact Eq.trans hb (Sweep.rowOf_eq_ok.2 hget).symm
  rw [← hfits.result]
  obtain ⟨out', hrun, hwritten⟩ := Register.exists_forM_written (k := .float) (c := inv.chain)
    (scaledStep step finish op x p q)
    (fun i => do
      let xs ← ofExcept (x.lane .float i)
      Register.modify .float i fun out => inv.map2 xs d out op)
    hfits.out_wellFormed (by rw [hfits.result, hk]) fun i hi z old hz hold => by
      obtain ⟨xs, hxs, hxsize⟩ := (hfits.args_wellFormed x hx).exists_lane (hkind x hx) (i := i)
        (by rw [hargs x hx, ← hfits.result]; exact hi)
      obtain ⟨new, hnew, hwrote⟩ := Sweep.exists_wrote (s := inv.toSweep) hc
        (fun r _ => return op (← rowOf xs r) (← rowOf d r)) (hold.trans hfits.out_rows)
        fun r hr _ => by
          obtain ⟨a, ha⟩ :=
            LiveChain.exists_getElem?_of_mem_visited (hxsize.trans (hfits.args_rows x hx)) hr
          obtain ⟨_, b, -, -, hb⟩ := hdwrote.live r hr
          exact ⟨op a b, by rw [Sweep.rowOf_eq_ok.2 ha, Sweep.rowOf_eq_ok.2 hb]; rfl⟩
      refine ⟨new, ?_, hwrote.congr (t := scaledStep step finish op x p q i) fun r hr old => ?_⟩
      · refine Stateful.run_bind_eq_ok.2 ⟨xs, z, ?_, Register.run_modify hz hnew⟩
        exact Stateful.run_ofExcept_eq_ok.2 ⟨hxs, rfl⟩
      · unfold scaledStep
        rw [Register.readRow_of_lane hxs, hdrow r hr]
  exact ⟨out', Stateful.run_bind_eq_ok.2 ⟨d, out,
    Stateful.run_ofExcept_eq_ok.2 ⟨hd, rfl⟩, hrun⟩, hwritten⟩

end Sums

end Builtin

end BatchShader
