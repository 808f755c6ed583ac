import BatchShader.Proofs.LiveChain
import BatchShader.Sweep
import Mathlib.Data.Nat.Bitwise
import Mathlib.Tactic.IntervalCases
import Mathlib.Tactic.Ring

/-
  A sweep calls its kernels for the live rows, each once.

  `startsAt_iff`: the masked word comparison says that the rows of a wide run are linked to each
  other. Hence the runs of a closed chain, one after the other, are the rows that the chain visits
  (`runs_eq_ok`), whatever the policy, and a sweep changes these rows in turn (`apply_eq_atRows`).

  `RowStep.Wrote` says what is left in the result: the step's value, taken once from the old one,
  at the live rows, and the old value at all others. `apply_eq_ok_iff` is the form used elsewhere.
-/

namespace BatchShader

namespace LiveChain

/-! ## Words of links -/

theorem linkWord_succ (links : Array UInt8) (row width : Nat) :
    linkWord links row (width + 1) =
      (links.getD row 0).toNat + 256 * linkWord links (row + 1) width := by
  unfold linkWord
  rw [List.range_succ_eq_map, List.foldr_cons, List.foldr_map]
  simp only [Nat.add_zero, Nat.succ_eq_add_one, Nat.add_assoc, Nat.add_comm 1]

/-- The word of `width` links that are all one. -/
def onesWord : Nat → Nat
  | 0 => 0
  | width + 1 => 1 + 256 * onesWord width

theorem linkWord_succ_div (links : Array UInt8) (row width : Nat) :
    linkWord links row (width + 1) / 256 = linkWord links (row + 1) width := by
  have hb := (links.getD row 0).toNat_lt
  rw [linkWord_succ]
  omega

theorem linkWord_succ_mod (links : Array UInt8) (row width m : Nat) :
    linkWord links row (width + 1) % (256 * m) =
      (links.getD row 0).toNat + 256 * (linkWord links (row + 1) width % m) := by
  have hb := (links.getD row 0).toNat_lt
  rw [Nat.mod_mul, linkWord_succ_div, linkWord_succ]
  omega

theorem linkWord_mod_eq_ones_iff (links : Array UInt8) (row width : Nat) :
    linkWord links row (width + 1) % 256 ^ width = onesWord width ↔
      ∀ i < width, links.getD (row + i) 0 = 1 := by
  induction width generalizing row with
  | zero => simp [onesWord, Nat.mod_one]
  | succ width ih =>
    have hb := (links.getD row 0).toNat_lt
    have hone : (links.getD row 0).toNat = 1 ↔ links.getD row 0 = 1 := by
      rw [← UInt8.toNat_inj]
      rfl
    rw [pow_succ', linkWord_succ_mod, onesWord]
    have hsplit : (∀ i < width + 1, links.getD (row + i) 0 = 1) ↔
        links.getD row 0 = 1 ∧ ∀ i < width, links.getD (row + 1 + i) 0 = 1 := by
      rw [Nat.forall_lt_succ_left]
      simp only [Nat.add_zero, Nat.add_assoc, Nat.add_comm 1]
    rw [hsplit, ← ih (row + 1), ← hone]
    omega

theorem linkWord_shift (links : Array UInt8) (row width : Nat) :
    linkWord links row (width + 1) >>> (8 * width) = (links.getD (row + width) 0).toNat := by
  rw [Nat.shiftRight_eq_div_pow, pow_mul]
  norm_num only
  induction width generalizing row with
  | zero => simp [linkWord]
  | succ width ih =>
    rw [pow_succ', ← Nat.div_div_eq_div_mul, linkWord_succ_div, ih, Nat.add_assoc, Nat.add_comm 1]

/-- The mask of a wide run leaves out the highest byte of the word, and its pattern has a one in
each of the others. -/
structure WideRun.Exact (w : WideRun) : Prop where
  width_pos : 0 < w.width
  mask_eq : w.mask = 2 ^ (8 * (w.width - 1)) - 1
  dense_eq : w.dense = onesWord (w.width - 1)

theorem WideRun.exact_eight : WideRun.eight.Exact := ⟨by decide, by decide, by decide⟩

theorem WideRun.exact_four : WideRun.four.Exact := ⟨by decide, by decide, by decide⟩

theorem WideRun.Exact.startsAt_iff {w : WideRun} (hw : w.Exact) (links : Array UInt8)
    (row : Nat) :
    w.startsAt links row = true ↔ row % w.width = 0 ∧ row + w.width ≤ links.size ∧
      ∀ i < w.width - 1, links.getD (row + i) 0 = 1 := by
  obtain ⟨n, hn⟩ : ∃ n, w.width = n + 1 := ⟨w.width - 1, by have := hw.width_pos; omega⟩
  have hpow : 2 ^ (8 * n) = 256 ^ n := by rw [pow_mul]; norm_num only
  rw [startsAt, hw.mask_eq, hw.dense_eq, hn, Nat.add_sub_cancel]
  simp only [Bool.and_eq_true, beq_iff_eq, decide_eq_true_eq]
  rw [Nat.and_two_pow_sub_one_eq_mod, hpow, linkWord_mod_eq_ones_iff, and_assoc]

theorem WideRun.Exact.lastLink_eq {w : WideRun} (hw : w.Exact) (links : Array UInt8)
    (row : Nat) : w.lastLink links row = (links.getD (row + (w.width - 1)) 0).toNat := by
  obtain ⟨n, hn⟩ : ∃ n, w.width = n + 1 := ⟨w.width - 1, by have := hw.width_pos; omega⟩
  rw [lastLink, hn, Nat.add_sub_cancel, linkWord_shift]

/-! ## Runs -/

theorem toNat_of_getD_eq_one {links : Array UInt8} {row : Nat} (hlt : row < links.size)
    (h : links.getD row 0 = 1) : links[row].toNat = 1 := by
  rw [Array.getD_eq_getD_getElem?, Array.getElem?_eq_getElem hlt] at h
  rw [show links[row] = 1 from h]
  rfl

/-- Rows that are linked to their neighbours are followed one by one. -/
theorem follow_dense {links : Array UInt8} {row n : Nat} (hrow : Linked links row)
    (hn : row + n < links.size) (h : ∀ i < n, links.getD (row + i) 0 = 1) :
    follow links row = List.range' row n ++ follow links (row + n) ∧ Linked links (row + n) := by
  induction n generalizing row with
  | zero => exact ⟨rfl, hrow⟩
  | succ n ih =>
    have hlt : row < links.size := by omega
    have h0 := toNat_of_getD_eq_one hlt (h 0 (Nat.succ_pos n))
    have hnext : Linked links (row + 1) := by
      cases hrow with
      | last _ hz => omega
      | step _ _ next => rwa [h0] at next
    obtain ⟨hf, hl⟩ := ih hnext (by omega) fun i hi => by
      have := h (i + 1) (by omega)
      rwa [Nat.add_comm i, ← Nat.add_assoc] at this
    have harith : row + 1 + n = row + (n + 1) := by omega
    rw [harith] at hf hl
    refine ⟨?_, hl⟩
    rw [follow_of_pos hlt (by omega), h0, hf]
    rfl

/-- Rows that are linked to their neighbours lead on inside the batch if the last of them does. -/
theorem linked_of_dense {links : Array UInt8} {row n : Nat} (hn : row + n < links.size)
    (h : ∀ i < n, links.getD (row + i) 0 = 1) (hlast : Linked links (row + n)) :
    Linked links row := by
  induction n generalizing row with
  | zero => exact hlast
  | succ n ih =>
    have hlt : row < links.size := by omega
    have h0 := toNat_of_getD_eq_one hlt (h 0 (Nat.succ_pos n))
    have harith : row + 1 + n = row + (n + 1) := by omega
    refine .step hlt (by omega) ?_
    rw [h0]
    refine ih (by omega) (fun i hi => ?_) (harith ▸ hlast)
    have := h (i + 1) (by omega)
    rwa [Nat.add_comm i, ← Nat.add_assoc] at this

/-- What `firstRun` finds at a row of the batch, wherever the links lead: rows linked to their
neighbours, and the link of the last one. -/
structure DenseRun (links : Array UInt8) (row : Nat) (run : Run) (delta : Nat) : Prop where
  start_eq : run.start = row
  width_mem : run.width ∈ [8, 4, 1]
  last_lt : row + (run.width - 1) < links.size
  dense : ∀ i < run.width - 1, links.getD (row + i) 0 = 1
  delta_eq : delta = (links.getD (row + (run.width - 1)) 0).toNat

theorem WideRun.Exact.denseRun {w : WideRun} (hw : w.Exact) {links : Array UInt8} {row : Nat}
    (hmem : w.width ∈ [8, 4, 1]) (h : w.startsAt links row = true) :
    DenseRun links row ⟨row, w.width⟩ (w.lastLink links row) := by
  obtain ⟨-, hsize, hones⟩ := (hw.startsAt_iff links row).1 h
  have hpos := hw.width_pos
  have hlast : row + (w.width - 1) < links.size := by omega
  exact ⟨rfl, hmem, hlast, hones, hw.lastLink_eq links row⟩

theorem denseRun_firstRun {links : Array UInt8} {row : Nat} (hlt : row < links.size)
    (paths : VectorPaths) :
    DenseRun links row (firstRun links paths row).1 (firstRun links paths row).2 := by
  unfold firstRun
  by_cases h8 : (paths.allowsEight && WideRun.eight.startsAt links row) = true
  · rw [if_pos h8]
    exact WideRun.exact_eight.denseRun (by decide) (Bool.and_eq_true _ _ ▸ h8).2
  rw [if_neg h8]
  by_cases h4 : (paths.allowsFour && WideRun.four.startsAt links row) = true
  · rw [if_pos h4]
    exact WideRun.exact_four.denseRun (by decide) (Bool.and_eq_true _ _ ▸ h4).2
  · rw [if_neg h4]
    exact ⟨rfl, by simp, hlt, fun i hi => absurd hi (Nat.not_lt_zero i), rfl⟩

/-- What `firstRun` finds at a linked row: where the run ends, the link there, and that the walk
covers the run. -/
structure LeadsOn (links : Array UInt8) (row : Nat) (run : Run) (delta : Nat) : Prop where
  start_eq : run.start = row
  width_mem : run.width ∈ [8, 4, 1]
  linked : Linked links (row + (run.width - 1))
  delta_eq : delta = (links.getD (row + (run.width - 1)) 0).toNat
  follow_eq : follow links row =
    List.range' row (run.width - 1) ++ follow links (row + (run.width - 1))

theorem leadsOn_firstRun {links : Array UInt8} {row : Nat} (hrow : Linked links row)
    (paths : VectorPaths) :
    LeadsOn links row (firstRun links paths row).1 (firstRun links paths row).2 := by
  obtain ⟨hstart, hwidth, hlast, hdense, hdelta⟩ := denseRun_firstRun hrow.lt_size paths
  obtain ⟨hfollow, hlinked⟩ := follow_dense hrow hlast hdense
  exact ⟨hstart, hwidth, hlinked, hdelta, hfollow⟩

/-- The rows of the runs from a linked row on are the rows of the walk. -/
theorem runsFrom_eq_ok {links : Array UInt8} {row : Nat} (hrow : Linked links row)
    (paths : VectorPaths) :
    ∃ runs, runsFrom links paths row = .ok runs ∧ runs.flatMap Run.toList = follow links row ∧
      ∀ run ∈ runs, run.width ∈ [8, 4, 1] := by
  -- the induction is on the rows left; each run is followed by the walk from its last row
  induction hd : links.size - row using Nat.strongRecOn generalizing row with
  | _ left ih =>
    have hl := leadsOn_firstRun hrow paths
    have hlt := hrow.lt_size
    have hlast := hl.linked.lt_size
    rw [runsFrom, dif_pos hlt]
    generalize firstRun links paths row = first at hl hlast ⊢
    obtain ⟨⟨start, width⟩, delta⟩ := first
    obtain ⟨rfl, hmem, hlinked, hdelta, hfollow⟩ := hl
    dsimp only at *
    have hpos : 0 < width := by
      simp only [List.mem_cons, List.not_mem_nil, or_false] at hmem
      omega
    have htoList : Run.toList ⟨start, width⟩ =
        List.range' start (width - 1) ++ [start + (width - 1)] := by
      rw [Run.toList, ← List.range'_1_concat, Nat.sub_add_cancel hpos]
    rw [Array.getD_eq_getD_getElem?, Array.getElem?_eq_getElem hlast, Option.getD_some] at hdelta
    by_cases hp : 0 < delta
    · have hnext : Linked links (start + (width - 1) + delta) := by
        cases hlinked with
        | last _ hz => omega
        | step _ _ next => rwa [← hdelta] at next
      obtain ⟨runs, hruns, hcover, hwidth⟩ := ih _ (by omega) hnext rfl
      refine ⟨⟨start, width⟩ :: runs, ?_, ?_, ?_⟩
      · rw [dif_pos hp, hruns]
        rfl
      · rw [List.flatMap_cons, htoList, hcover, hfollow, follow_of_pos hlast (by omega), ← hdelta,
          List.append_assoc]
        rfl
      · exact List.forall_mem_cons.2 ⟨hmem, hwidth⟩
    · refine ⟨[⟨start, width⟩], by rw [dif_neg hp], ?_, by simpa using hmem⟩
      rw [List.flatMap_singleton, htoList, hfollow, follow_of_zero hlast (by omega)]

/-- The runs of a closed chain cover the rows it visits, in order, whatever the policy. -/
theorem Closed.runs_eq_ok {c : LiveChain} (h : c.Closed) (paths : VectorPaths) :
    ∃ runs, c.runs paths = .ok runs ∧ runs.flatMap Run.toList = c.visited ∧
      ∀ run ∈ runs, run.width ∈ [8, 4, 1] := by
  unfold runs visited
  cases hs : c.start with
  | none => exact ⟨[], rfl, rfl, by simp⟩
  | some row => exact runsFrom_eq_ok (h row hs) paths

/-- From a row that leads out of the batch there are no runs, whatever the policy. -/
theorem runsFrom_eq_error {links : Array UInt8} {row : Nat} (hrow : ¬Linked links row)
    (paths : VectorPaths) : runsFrom links paths row = .error .outOfRange := by
  induction hd : links.size - row using Nat.strongRecOn generalizing row with
  | _ left ih =>
    by_cases hlt : row < links.size
    · obtain ⟨-, -, hlast, hdense, hdelta⟩ := denseRun_firstRun hlt paths
      rw [runsFrom, dif_pos hlt]
      dsimp only
      generalize (firstRun links paths row).1.width - 1 = n at hlast hdense hdelta ⊢
      generalize (firstRun links paths row).2 = delta at hdelta ⊢
      rw [Array.getD_eq_getD_getElem?, Array.getElem?_eq_getElem hlast,
        Option.getD_some] at hdelta
      -- the last row of the run leads out as well, so its link is not the end
      have hout : ¬Linked links (row + n) := fun h => hrow (linked_of_dense hlast hdense h)
      have hpos : 0 < delta := Nat.pos_of_ne_zero fun hz => hout (.last hlast (by omega))
      have hnext : ¬Linked links (row + n + delta) := fun h =>
        hout (.step hlast (by omega) (hdelta ▸ h))
      rw [dif_pos hpos, ih _ (by omega) hnext rfl]
      rfl
    · rw [runsFrom, dif_neg hlt]

/-- A chain that leads out of the batch has no runs, whatever the policy. -/
theorem runs_eq_error {c : LiveChain} (h : ¬c.Closed) (paths : VectorPaths) :
    c.runs paths = .error .outOfRange := by
  obtain ⟨row, hstart, hrow⟩ : ∃ row, c.start = some row ∧ ¬Linked c.links row := by
    simpa only [Closed, not_forall, exists_prop] using h
  rw [runs, hstart]
  exact runsFrom_eq_error hrow paths

end LiveChain

/-! ## Rows one after the other -/

namespace RowStep

variable {β : Type} {step : RowStep β}

/-- `new` comes from `old` by one step at each of some rows. -/
structure Wrote (step : RowStep β) (rows : List Nat) (old new : Array β) : Prop where
  size_eq : new.size = old.size
  live : ∀ r ∈ rows, ∃ x y, old[r]? = some x ∧ step r x = .ok y ∧ new[r]? = some y
  dead : ∀ r, r ∉ rows → new[r]? = old[r]?

theorem atRow_eq_ok {old new : Array β} {row : Nat} :
    step.atRow old row = .ok new ↔
      ∃ x y, old[row]? = some x ∧ step row x = .ok y ∧ new = old.setIfInBounds row y := by
  unfold atRow
  split
  · next h =>
    rw [Outcome.bind_eq_ok]
    constructor
    · rintro ⟨y, hy, hnew⟩
      refine ⟨old[row], y, Array.getElem?_eq_getElem h, hy, ?_⟩
      rw [Array.setIfInBounds, dif_pos h]
      exact (Except.ok.inj hnew).symm
    · rintro ⟨x, y, hx, hy, rfl⟩
      obtain ⟨_, rfl⟩ := Array.getElem?_eq_some_iff.1 hx
      refine ⟨y, hy, ?_⟩
      rw [Array.setIfInBounds, dif_pos h]
      rfl
  · next h =>
    constructor
    · intro h
      cases h
    · rintro ⟨x, -, hx, -⟩
      exact absurd (Array.getElem?_eq_some_iff.1 hx).1 h

theorem wrote_nil (old : Array β) : Wrote step [] old old :=
  ⟨rfl, fun _ h => (nomatch h), fun _ _ => rfl⟩

/-- Rows that are all different are changed independently of each other. -/
theorem atRows_eq_ok_iff {rows : List Nat} (hn : rows.Nodup) {old new : Array β} :
    step.atRows rows old = .ok new ↔ Wrote step rows old new := by
  induction rows generalizing old with
  | nil =>
    constructor
    · intro h
      rw [← Except.ok.inj h]
      exact wrote_nil old
    · intro h
      have : old = new := Array.ext_getElem? fun r => (h.dead r List.not_mem_nil).symm
      rw [this]
      rfl
  | cons a rest ih =>
    obtain ⟨ha, hrest⟩ := List.nodup_cons.1 hn
    have hne : ∀ r ∈ rest, a ≠ r := fun r hr => by rintro rfl; exact ha hr
    rw [atRows, List.foldlM_cons, Outcome.bind_eq_ok]
    constructor
    · rintro ⟨mid, hmid, h⟩
      obtain ⟨x, y, hx, hy, rfl⟩ := atRow_eq_ok.1 hmid
      have hw := (ih hrest).1 h
      have hlt : a < old.size := (Array.getElem?_eq_some_iff.1 hx).1
      refine ⟨by rw [hw.size_eq, Array.size_setIfInBounds], ?_, ?_⟩
      · refine List.forall_mem_cons.2 ⟨⟨x, y, hx, hy, ?_⟩, fun r hr => ?_⟩
        · rw [hw.dead a ha, Array.getElem?_setIfInBounds_self_of_lt hlt]
        · obtain ⟨x', y', hx', h'⟩ := hw.live r hr
          rw [Array.getElem?_setIfInBounds_ne (hne r hr)] at hx'
          exact ⟨x', y', hx', h'⟩
      · intro r hr
        obtain ⟨hra, hrr⟩ := not_or.1 (List.mem_cons.not.1 hr)
        rw [hw.dead r hrr, Array.getElem?_setIfInBounds_ne (Ne.symm hra)]
    · intro hw
      obtain ⟨x, y, hx, hy, hnew⟩ := hw.live a List.mem_cons_self
      have hlt : a < old.size := (Array.getElem?_eq_some_iff.1 hx).1
      refine ⟨old.setIfInBounds a y, atRow_eq_ok.2 ⟨x, y, hx, hy, rfl⟩, (ih hrest).2 ⟨?_, ?_, ?_⟩⟩
      · rw [hw.size_eq, Array.size_setIfInBounds]
      · intro r hr
        rw [Array.getElem?_setIfInBounds_ne (hne r hr)]
        exact hw.live r (List.mem_cons_of_mem a hr)
      · intro r hr
        by_cases hra : a = r
        · rw [← hra, Array.getElem?_setIfInBounds_self_of_lt hlt, hnew]
        · rw [Array.getElem?_setIfInBounds_ne hra]
          exact hw.dead r fun hm => (List.mem_cons.1 hm).elim (fun e => hra e.symm) hr

/-- If every step succeeds, so do all together. -/
theorem exists_wrote {rows : List Nat} (hn : rows.Nodup) {old : Array β}
    (h : ∀ r ∈ rows, ∃ x y, old[r]? = some x ∧ step r x = .ok y) :
    ∃ new, Wrote step rows old new := by
  induction rows generalizing old with
  | nil => exact ⟨old, wrote_nil old⟩
  | cons a rest ih =>
    obtain ⟨ha, hrest⟩ := List.nodup_cons.1 hn
    obtain ⟨x, y, hx, hy⟩ := h a List.mem_cons_self
    have hrows : ∀ r ∈ rest, ∃ x' y', (old.setIfInBounds a y)[r]? = some x' ∧
        step r x' = .ok y' := fun r hr => by
      rw [Array.getElem?_setIfInBounds_ne (by rintro rfl; exact ha hr)]
      exact h r (List.mem_cons_of_mem a hr)
    obtain ⟨new, hnew⟩ := ih hrest hrows
    refine ⟨new, (atRows_eq_ok_iff hn).1 ?_⟩
    rw [atRows, List.foldlM_cons, atRow_eq_ok.2 ⟨x, y, hx, hy, rfl⟩]
    exact (atRows_eq_ok_iff hrest).2 hnew

end RowStep

/-! ## Sweeps -/

namespace Sweep

variable {β : Type}

/-- A loop over runs is a loop over their rows. -/
theorem foldlM_runs (step : RowStep β) (runs : List Run) (out : Array β) :
    runs.foldlM (fun out run => step.atRows run.toList out) out =
      step.atRows (runs.flatMap Run.toList) out := by
  induction runs generalizing out with
  | nil => rfl
  | cons run runs ih =>
    simp only [RowStep.atRows, List.flatMap_cons, List.foldlM_append, List.foldlM_cons] at ih ⊢
    exact bind_congr ih

/-- A sweep over a closed chain changes the rows it visits in turn. -/
theorem apply_eq_atRows {s : Sweep} (hc : s.chain.Closed) (step : RowStep β) (out : Array β) :
    s.apply step out = step.atRows s.chain.visited out := by
  obtain ⟨runs, hruns, hcover, -⟩ := hc.runs_eq_ok s.paths
  rw [apply, hruns, ← hcover, ← foldlM_runs]
  rfl

/-- What a sweep over a closed chain leaves behind. -/
theorem apply_eq_ok_iff {s : Sweep} (hc : s.chain.Closed) {step : RowStep β}
    {old new : Array β} :
    s.apply step old = .ok new ↔ step.Wrote s.chain.visited old new := by
  rw [apply_eq_atRows hc, RowStep.atRows_eq_ok_iff s.chain.visited_nodup]

/-- A sweep over a closed chain succeeds if its step does at each live row. -/
theorem exists_apply_eq_ok {s : Sweep} (hc : s.chain.Closed) {step : RowStep β} {old : Array β}
    (h : ∀ r ∈ s.chain.visited, ∃ x y, old[r]? = some x ∧ step r x = .ok y) :
    ∃ new, s.apply step old = .ok new ∧ step.Wrote s.chain.visited old new := by
  obtain ⟨new, hnew⟩ := RowStep.exists_wrote s.chain.visited_nodup h
  exact ⟨new, (apply_eq_ok_iff hc).2 hnew, hnew⟩

/-- An element that is read is there. -/
theorem rowOf_eq_ok {α : Type} {column : Array α} {r : Nat} {x : α} :
    rowOf column r = .ok x ↔ column[r]? = some x := by
  unfold rowOf
  cases column[r]? <;> simp

end Sweep

/-! ## Results by row -/

namespace LiveChain

variable {α β γ δ ε : Type}

/-- Under every policy, a sweep over the chain leaves one and the same result: `value r` at each
live row `r`, and the old elements at all other rows. -/
def Computes (c : LiveChain) (sweep : Sweep → Outcome (Array β)) (old : Array β)
    (value : Nat → Option β) : Prop :=
  ∃ new, (∀ paths, sweep ⟨c, paths⟩ = .ok new) ∧ new.size = old.size ∧
    ∀ r, new[r]? = if r ∈ c.visited then value r else old[r]?

theorem Closed.computes {c : LiveChain} (hc : c.Closed) {step : RowStep β} {old : Array β}
    {value : Nat → Option β}
    (h : ∀ r ∈ c.visited, ∃ x y, old[r]? = some x ∧ step r x = .ok y ∧ value r = some y) :
    c.Computes (·.apply step old) old value := by
  obtain ⟨new, hw⟩ := RowStep.exists_wrote c.visited_nodup fun r hr => by
    obtain ⟨x, y, hx, hy, -⟩ := h r hr
    exact ⟨x, y, hx, hy⟩
  refine ⟨new, fun paths => (Sweep.apply_eq_ok_iff hc).2 hw, hw.size_eq, fun r => ?_⟩
  split
  · next hr =>
    obtain ⟨x, y, hx, hy, hnew⟩ := hw.live r hr
    obtain ⟨x', y', hx', hy', hvalue⟩ := h r hr
    rw [hx, Option.some.injEq] at hx'
    rw [← hx', hy, Except.ok.injEq] at hy'
    rw [hnew, hvalue, hy']
  · next hr => exact hw.dead r hr

/-- A row that the chain visits is a row of each column as long as the batch. -/
theorem exists_getElem?_of_mem_visited {c : LiveChain} {column : Array α}
    (h : column.size = c.rows) {r : Nat} (hr : r ∈ c.visited) : ∃ x, column[r]? = some x :=
  ⟨_, Array.getElem?_eq_getElem (h ▸ lt_rows_of_mem_visited hr)⟩

/-- Over a chain whose links, followed from the start, stay inside the batch, whatever the links of
the other rows are: the kernel calls cover the visited rows, each once and in ascending order, and
each sweep leaves the operator's value, applied once, at the live rows and nothing else changed. -/
theorem Closed.sweeps_compute {c : LiveChain} (hc : c.Closed) (a : Array α) (b : Array γ)
    (d : Array δ) (e : Array ε) (out : Array β) (ha : a.size = c.rows) (hb : b.size = c.rows)
    (hd : d.size = c.rows) (he : e.size = c.rows) (hout : out.size = c.rows) :
    c.visited.Pairwise (· < ·) ∧
    (∀ paths, ∃ runs, c.runs paths = .ok runs ∧ runs.flatMap Run.toList = c.visited ∧
      ∀ run ∈ runs, run.width ∈ [8, 4, 1]) ∧
    (∀ op : α → β, c.Computes (·.map1 a out op) out fun r => op <$> a[r]?) ∧
    (∀ op : α → γ → β, c.Computes (·.map2 a b out op) out fun r => op <$> a[r]? <*> b[r]?) ∧
    (∀ op : α → γ → δ → β, c.Computes (·.map3 a b d out op) out
      fun r => op <$> a[r]? <*> b[r]? <*> d[r]?) ∧
    (∀ op : α → γ → δ → ε → β, c.Computes (·.map4 a b d e out op) out
      fun r => op <$> a[r]? <*> b[r]? <*> d[r]? <*> e[r]?) ∧
    (∀ op : β → α → β, c.Computes (·.update1 out a op) out fun r => op <$> out[r]? <*> a[r]?) ∧
    (∀ op : β → α → γ → β, c.Computes (·.update2 out a b op) out
      fun r => op <$> out[r]? <*> a[r]? <*> b[r]?) ∧
    (∀ op : β → α → γ → δ → β, c.Computes (·.update3 out a b d op) out
      fun r => op <$> out[r]? <*> a[r]? <*> b[r]? <*> d[r]?) := by
  refine ⟨c.visited_pairwise, hc.runs_eq_ok, ?_, ?_, ?_, ?_, ?_, ?_, ?_⟩
  all_goals
    intro op
    refine hc.computes fun r hr => ?_
    obtain ⟨x, hx⟩ := exists_getElem?_of_mem_visited ha hr
    obtain ⟨y, hy⟩ := exists_getElem?_of_mem_visited hb hr
    obtain ⟨z, hz⟩ := exists_getElem?_of_mem_visited hd hr
    obtain ⟨w, hw⟩ := exists_getElem?_of_mem_visited he hr
    obtain ⟨old, hold⟩ := exists_getElem?_of_mem_visited hout hr
    refine ⟨old, ?_⟩
    simp [hx, hy, hz, hw, hold, rowOf]

/-- Rows 0 to 3 and 5 are live; the link of row 4, which is not, leads far out of the batch. -/
def strayLink : LiveChain := ⟨#[1, 1, 1, 2, 77, 0], some 0, 5⟩

theorem closed_strayLink : strayLink.Closed := by
  intro row h
  cases h
  iterate 4 refine .step (by decide) (by decide) ?_
  exact .last (by decide) (by decide)

theorem visited_strayLink : strayLink.visited = [0, 1, 2, 3, 5] := by
  simp [strayLink, visited, follow]

theorem sweeps_compute_strayLink :
    strayLink.Closed ∧ ∀ paths, (⟨strayLink, paths⟩ : Sweep).update1
      (#[10, 11, 12, 13, 14, 15] : Array Nat) (#[1, 2, 3, 4, 5, 6] : Array Nat) (· + ·) =
        .ok #[11, 13, 15, 17, 14, 21] := by
  refine ⟨closed_strayLink, fun paths => ?_⟩
  have unused : (#[(), (), (), (), (), ()] : Array Unit).size = strayLink.rows := rfl
  obtain ⟨-, -, -, -, -, -, hupdate, -⟩ := closed_strayLink.sweeps_compute
    (#[1, 2, 3, 4, 5, 6] : Array Nat) _ _ _ (#[10, 11, 12, 13, 14, 15] : Array Nat)
    rfl unused unused unused rfl
  obtain ⟨new, hnew, hsize, hrow⟩ := hupdate (· + ·)
  refine (hnew paths).trans (congrArg Except.ok ?_)
  refine Array.ext hsize fun r hr hr' => Option.some.inj ?_
  rw [← Array.getElem?_eq_getElem hr, ← Array.getElem?_eq_getElem hr', hrow, visited_strayLink]
  have : r < 6 := hr'
  interval_cases r <;> rfl

end LiveChain

end BatchShader
