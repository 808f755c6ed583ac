import BatchShader.Proofs.Coverage
import BatchShader.Proofs.LiveSet
import Mathlib.Data.List.Pairwise

/-
  Which runs a chain is cut into.

  `Taken paths live run` says it of the set of live rows alone: full blocks of eight where the
  policy is for them, full groups of four outside of these blocks, and every other live row by
  itself. `Closed.runs_taken`: a closed chain is cut into these runs, whatever the links of the rows
  that are not live.

  The code looks at links, and only at rows that it arrives at. `startsAt_iff_fullBlock` turns the
  comparison of link words into a statement about live rows. A run starts at a multiple of its
  width, so none begins inside a block of its own width or wider and reaches past it: the run that
  holds the first row of a full block starts there (`Cut.eight_mem`, `Cut.four_mem`).
-/

namespace BatchShader.LiveChain

/-! ## Blocks and the runs to take -/

/-- A block of `width` rows, aligned to its width, all of whose rows are live. -/
structure FullBlock (live : List Nat) (width start : Nat) : Prop where
  aligned : start % width = 0
  live : ∀ i < width, start + i ∈ live

/-- The runs that a policy takes for a set of live rows. -/
inductive Taken (paths : VectorPaths) (live : List Nat) : Run → Prop
  /-- A full block of eight rows. -/
  | eight {start : Nat} (hpaths : paths = .wide8) (hfull : FullBlock live 8 start) :
    Taken paths live ⟨start, 8⟩
  /-- A full group of four rows that is not inside a run of eight. -/
  | four {start : Nat} (hpaths : paths = .wide8 ∨ paths = .wide4) (hfull : FullBlock live 4 start)
      (outside : paths = .wide8 → ∀ block, FullBlock live 8 block →
        start ∉ (Run.mk block 8).toList) : Taken paths live ⟨start, 4⟩
  /-- A live row that no wider run holds. -/
  | one {row : Nat} (hlive : row ∈ live)
      (outside8 : paths = .wide8 → ∀ block, FullBlock live 8 block →
        row ∉ (Run.mk block 8).toList)
      (outside4 : paths = .wide8 ∨ paths = .wide4 → ∀ group, FullBlock live 4 group →
        row ∉ (Run.mk group 4).toList) : Taken paths live ⟨row, 1⟩

theorem mem_toList {run : Run} {row : Nat} :
    row ∈ run.toList ↔ run.start ≤ row ∧ row < run.start + run.width := List.mem_range'_1

section Blocks

variable {live live' : List Nat} {paths : VectorPaths} {width start row : Nat} {run : Run}

theorem FullBlock.mem (h : FullBlock live width start)
    (hrow : row ∈ (Run.mk start width).toList) : row ∈ live := by
  obtain ⟨hle, hlt⟩ := mem_toList.1 hrow
  have hmem := h.live (row - start) (by dsimp only at hle hlt; omega)
  rwa [Nat.add_sub_cancel' hle] at hmem

theorem FullBlock.congr (h : ∀ r, r ∈ live ↔ r ∈ live') :
    FullBlock live width start ↔ FullBlock live' width start := by
  constructor <;> rintro ⟨haligned, hall⟩
  · exact ⟨haligned, fun i hi => (h _).1 (hall i hi)⟩
  · exact ⟨haligned, fun i hi => (h _).2 (hall i hi)⟩

/-- The runs to take depend on the set of live rows alone. -/
theorem Taken.congr (h : ∀ r, r ∈ live ↔ r ∈ live') (htaken : Taken paths live run) :
    Taken paths live' run := by
  cases htaken with
  | eight hpaths hfull => exact .eight hpaths ((FullBlock.congr h).1 hfull)
  | four hpaths hfull outside =>
    exact .four hpaths ((FullBlock.congr h).1 hfull) fun hp block hblock =>
      outside hp block ((FullBlock.congr h).2 hblock)
  | one hlive outside8 outside4 =>
    exact .one ((h _).1 hlive) (fun hp block hblock => outside8 hp block
      ((FullBlock.congr h).2 hblock)) fun hp group hgroup => outside4 hp group
        ((FullBlock.congr h).2 hgroup)

end Blocks

/-! ## From links to live rows -/

/-- The rest of a walk, from a row that it visits, visits the same rows as the walk itself. -/
theorem mem_follow_iff {links : Array UInt8} {start row r : Nat} (hrow : row ∈ follow links start)
    (hr : row ≤ r) : r ∈ follow links start ↔ r ∈ follow links row := by
  fun_induction follow links start with
  | case1 start h hp ih =>
    obtain rfl | hrest := List.mem_cons.1 hrow
    · rw [follow_of_pos h hp]
    · have hbound := (mem_follow_bounds links _ row hrest).1
      rw [← ih hrest, List.mem_cons, or_iff_right (by omega)]
  | case2 start h hp =>
    obtain rfl := List.mem_singleton.1 hrow
    rw [follow_of_zero h (by omega)]
  | case3 start h => cases hrow

/-- The rows of a walk are linked as its start is. -/
theorem Linked.of_mem {links : Array UInt8} {start row : Nat} (h : Linked links start)
    (hrow : row ∈ follow links start) : Linked links row := by
  induction h with
  | last hlt hz =>
    rw [follow_of_zero hlt hz, List.mem_singleton] at hrow
    rw [hrow]
    exact .last hlt hz
  | step hlt hp next ih =>
    rw [follow_of_pos hlt hp] at hrow
    obtain rfl | hrest := List.mem_cons.1 hrow
    · exact .step hlt hp next
    · exact ih hrest

/-- A walk that visits the next row is linked to it, and goes on from there. -/
theorem Linked.of_mem_succ {links : Array UInt8} {row : Nat} (h : Linked links row)
    (hmem : row + 1 ∈ follow links row) :
    Linked links (row + 1) ∧ links.getD row 0 = 1 ∧
      follow links row = row :: follow links (row + 1) := by
  cases h with
  | last hlt hz =>
    rw [follow_of_zero hlt hz, List.mem_singleton] at hmem
    omega
  | step hlt hp next =>
    rw [follow_of_pos hlt hp] at hmem ⊢
    rw [List.mem_cons, or_iff_right (by omega)] at hmem
    have hbound := (mem_follow_bounds links _ _ hmem).1
    have hone : links[row].toNat = 1 := by omega
    rw [hone] at next ⊢
    refine ⟨next, ?_, rfl⟩
    rw [Array.getD_eq_getD_getElem?, Array.getElem?_eq_getElem hlt, Option.getD_some,
      ← UInt8.toNat_inj, hone]
    rfl

theorem dense_of_mem_follow {links : Array UInt8} {row n : Nat} (hrow : Linked links row)
    (hmem : ∀ i ≤ n, row + i ∈ follow links row) : ∀ i < n, links.getD (row + i) 0 = 1 := by
  induction n generalizing row with
  | zero => exact fun i hi => absurd hi (Nat.not_lt_zero i)
  | succ n ih =>
    obtain ⟨hnext, hone, hfollow⟩ := hrow.of_mem_succ (hmem 1 (by omega))
    intro i hi
    cases i with
    | zero => exact hone
    | succ i =>
      have hstep := ih hnext (fun j hj => ?_) i (by omega)
      · rwa [Nat.add_assoc, Nat.add_comm 1] at hstep
      · have hj := hmem (j + 1) (by omega)
        rw [hfollow, List.mem_cons, or_iff_right (by omega)] at hj
        rwa [Nat.add_assoc, Nat.add_comm 1]

theorem mem_follow_of_dense {links : Array UInt8} {row n : Nat} (hrow : Linked links row)
    (hlt : row + n < links.size) (hdense : ∀ i < n, links.getD (row + i) 0 = 1) :
    ∀ i ≤ n, row + i ∈ follow links row := by
  intro i hi
  obtain ⟨hfollow, hlast⟩ := follow_dense hrow hlt hdense
  have hhead : row + n ∈ follow links (row + n) := by
    cases hlast with
    | last hlt hz => rw [follow_of_zero hlt hz]; exact List.mem_cons_self
    | step hlt hp _ => rw [follow_of_pos hlt hp]; exact List.mem_cons_self
  rw [hfollow, List.mem_append, List.mem_range'_1]
  obtain hi | rfl := Nat.lt_or_eq_of_le hi
  · exact .inl ⟨Nat.le_add_right row i, by omega⟩
  · exact .inr hhead

/-- Links are all one exactly where a walk visits one row after the other. -/
theorem dense_iff_mem_follow {links : Array UInt8} {row n : Nat} (hrow : Linked links row) :
    (row + n < links.size ∧ ∀ i < n, links.getD (row + i) 0 = 1) ↔
      ∀ i ≤ n, row + i ∈ follow links row :=
  ⟨fun h => mem_follow_of_dense hrow h.1 h.2, fun hmem =>
    ⟨(mem_follow_bounds links row _ (hmem n (Nat.le_refl n))).2, dense_of_mem_follow hrow hmem⟩⟩

/-- At a row that the chain visits, a wide run starts exactly if the row begins a full block: the
links of rows that are not live do not matter. -/
theorem WideRun.Exact.startsAt_iff_fullBlock {w : WideRun} (hw : w.Exact) {c : LiveChain}
    (hc : c.Closed) {row : Nat} (hrow : row ∈ c.visited) :
    w.startsAt c.links row = true ↔ FullBlock c.visited w.width row := by
  obtain ⟨start, hstart, hvisited⟩ : ∃ start, c.start = some start ∧
      c.visited = follow c.links start := by
    unfold visited at hrow ⊢
    cases hs : c.start with
    | none => rw [hs] at hrow; cases hrow
    | some start => exact ⟨start, rfl, rfl⟩
  rw [hvisited] at hrow ⊢
  have hpos := hw.width_pos
  have hdense := dense_iff_mem_follow (n := w.width - 1) ((hc start hstart).of_mem hrow)
  have hlast : row + w.width ≤ c.links.size ↔ row + (w.width - 1) < c.links.size := by omega
  rw [hw.startsAt_iff, hlast, hdense]
  constructor
  · rintro ⟨haligned, hall⟩
    exact ⟨haligned, fun i hi => (mem_follow_iff hrow (Nat.le_add_right row i)).2
      (hall i (by omega))⟩
  · rintro ⟨haligned, hall⟩
    exact ⟨haligned, fun i hi => (mem_follow_iff hrow (Nat.le_add_right row i)).1
      (hall i (by omega))⟩

/-! ## The run at a row -/

/-- What is taken at a row that has been arrived at: the widest run that may start there. -/
inductive Widest (paths : VectorPaths) (live : List Nat) : Run → Prop
  | eight {row : Nat} (hpaths : paths = .wide8) (hfull : FullBlock live 8 row) :
    Widest paths live ⟨row, 8⟩
  | four {row : Nat} (hpaths : paths = .wide8 ∨ paths = .wide4) (hfull : FullBlock live 4 row)
      (no8 : paths = .wide8 → ¬FullBlock live 8 row) : Widest paths live ⟨row, 4⟩
  | one {row : Nat} (hlive : row ∈ live) (no8 : paths = .wide8 → ¬FullBlock live 8 row)
      (no4 : paths = .wide8 ∨ paths = .wide4 → ¬FullBlock live 4 row) :
    Widest paths live ⟨row, 1⟩

theorem allowsEight_iff {paths : VectorPaths} : paths.allowsEight = true ↔ paths = .wide8 := by
  cases paths <;> decide

theorem allowsFour_iff {paths : VectorPaths} :
    paths.allowsFour = true ↔ paths = .wide8 ∨ paths = .wide4 := by
  cases paths <;> decide

theorem Closed.widest_firstRun {c : LiveChain} (hc : c.Closed) (paths : VectorPaths) {row : Nat}
    (hrow : row ∈ c.visited) : Widest paths c.visited (firstRun c.links paths row).1 := by
  have h8 := WideRun.exact_eight.startsAt_iff_fullBlock hc hrow
  have h4 := WideRun.exact_four.startsAt_iff_fullBlock hc hrow
  unfold firstRun
  split
  · next h =>
    rw [Bool.and_eq_true, h8, allowsEight_iff] at h
    exact .eight h.1 h.2
  next hno8 =>
  rw [Bool.and_eq_true, h8, allowsEight_iff, not_and] at hno8
  split
  · next h =>
    rw [Bool.and_eq_true, h4, allowsFour_iff] at h
    exact .four h.1 h.2 hno8
  · next hno4 =>
    rw [Bool.and_eq_true, h4, allowsFour_iff, not_and] at hno4
    exact .one hrow hno8 hno4

/-- Each run from a row on is the first run at a row of the walk. -/
theorem eq_firstRun_of_mem_runsFrom {links : Array UInt8} {row : Nat} (hrow : Linked links row)
    (paths : VectorPaths) {runs : List Run} (h : runsFrom links paths row = .ok runs) {run : Run}
    (hrun : run ∈ runs) : ∃ r ∈ follow links row, run = (firstRun links paths r).1 := by
  induction hd : links.size - row using Nat.strongRecOn generalizing row runs with
  | _ left ih =>
    have hlt := hrow.lt_size
    have hl := leadsOn_firstRun hrow paths
    have hself : row ∈ follow links row := by
      rw [follow, dif_pos hlt]
      split <;> exact List.mem_cons_self
    rw [runsFrom, dif_pos hlt] at h
    dsimp only at h
    split at h
    · next hp =>
      have hlast := hl.linked.lt_size
      have hdelta := hl.delta_eq
      rw [Array.getD_eq_getD_getElem?, Array.getElem?_eq_getElem hlast, Option.getD_some] at hdelta
      cases hrest : runsFrom links paths
          (row + ((firstRun links paths row).1.width - 1) + (firstRun links paths row).2) with
      | error f =>
        rw [hrest] at h
        cases h
      | ok rest =>
        rw [hrest] at h
        cases h
        obtain rfl | hmem := List.mem_cons.1 hrun
        · exact ⟨row, hself, rfl⟩
        -- the row after the run is one of the walk, and the walk goes on from there
        have hfollow := hl.follow_eq
        rw [follow_of_pos hlast (by omega), ← hdelta] at hfollow
        have hnext : Linked links
            (row + ((firstRun links paths row).1.width - 1) + (firstRun links paths row).2) := by
          cases hl.linked with
          | last _ hz => omega
          | step _ _ next => rwa [← hdelta] at next
        obtain ⟨r, hr, heq⟩ := ih _ (by omega) hnext hrest hmem rfl
        refine ⟨r, ?_, heq⟩
        rw [hfollow]
        exact List.mem_append_right _ (List.mem_cons_of_mem _ hr)
    · cases h
      exact ⟨row, hself, List.mem_singleton.1 hrun⟩

theorem Closed.widest_of_mem_runs {c : LiveChain} (hc : c.Closed) {paths : VectorPaths}
    {runs : List Run} (h : c.runs paths = .ok runs) {run : Run} (hrun : run ∈ runs) :
    Widest paths c.visited run := by
  unfold LiveChain.runs at h
  cases hs : c.start with
  | none =>
    rw [hs] at h
    cases h
    cases hrun
  | some start =>
    rw [hs] at h
    obtain ⟨r, hr, rfl⟩ := eq_firstRun_of_mem_runsFrom (hc start hs) paths h hrun
    refine hc.widest_firstRun paths ?_
    rwa [visited, hs]

/-! ## Runs that hold all live rows -/

/-- Live rows cut into runs, each of which is the widest where it starts. -/
structure Cut (paths : VectorPaths) (live : List Nat) (runs : List Run) : Prop where
  cover : runs.flatMap Run.toList = live
  ascending : live.Pairwise (· < ·)
  widest : ∀ run ∈ runs, Widest paths live run

theorem Closed.cut {c : LiveChain} (hc : c.Closed) (paths : VectorPaths) :
    ∃ runs, c.runs paths = .ok runs ∧ Cut paths c.visited runs := by
  obtain ⟨runs, hruns, hcover, -⟩ := hc.runs_eq_ok paths
  exact ⟨runs, hruns, hcover, c.visited_pairwise, fun run hrun => hc.widest_of_mem_runs hruns hrun⟩

section Cut

variable {paths : VectorPaths} {live : List Nat} {runs : List Run} {run run' : Run} {row : Nat}

theorem Widest.width_pos (h : Widest paths live run) : 0 < run.width := by
  cases h <;> exact Nat.succ_pos _

namespace Cut

/-- Runs follow each other and do not overlap. -/
theorem pairwise (h : Cut paths live runs) :
    runs.Pairwise fun a b => a.start + a.width ≤ b.start := by
  have hrows := h.cover ▸ h.ascending
  rw [List.pairwise_flatMap] at hrows
  refine hrows.2.imp_of_mem fun {a b} ha hb hab => ?_
  have hapos := (h.widest a ha).width_pos
  have hbpos := (h.widest b hb).width_pos
  have hlt := hab (a.start + (a.width - 1)) (mem_toList.2 (by omega)) b.start
    (mem_toList.2 (by omega))
  omega

theorem exists_mem (h : Cut paths live runs) (hrow : row ∈ live) :
    ∃ run ∈ runs, row ∈ run.toList := by
  rwa [← h.cover, List.mem_flatMap] at hrow

/-- A row is in one run only. -/
theorem eq_of_mem (h : Cut paths live runs) (hrun : run ∈ runs) (hrun' : run' ∈ runs)
    (hrow : row ∈ run.toList) (hrow' : row ∈ run'.toList) : run = run' := by
  have : Std.Symm fun a b : Run => a.start + a.width ≤ b.start ∨ b.start + b.width ≤ a.start :=
    ⟨fun _ _ => Or.symm⟩
  have hapart := (h.pairwise.imp fun hab => Or.inl hab :
    runs.Pairwise fun a b => a.start + a.width ≤ b.start ∨ b.start + b.width ≤ a.start).forall
  by_contra hne
  have hdisjoint := hapart hrun hrun' hne
  rw [mem_toList] at hrow hrow'
  omega

/-- The run that holds the first row of a full block of eight is that block: no run begins before
the block and reaches into it. -/
theorem eight_mem (h : Cut paths live runs) (hpaths : paths = .wide8)
    (hfull : FullBlock live 8 row) : ⟨row, 8⟩ ∈ runs := by
  obtain ⟨run, hrun, hmem⟩ := h.exists_mem (hfull.live 0 (by decide))
  have haligned := hfull.aligned
  rw [mem_toList] at hmem
  cases h.widest run hrun with
  | @eight start _ hfull' =>
    have := hfull'.aligned
    dsimp only at hmem
    obtain rfl : start = row := by omega
    exact hrun
  | @four start _ hfull' no8 =>
    have := hfull'.aligned
    dsimp only at hmem
    obtain rfl : start = row := by omega
    exact absurd hfull (no8 hpaths)
  | @one start _ no8 _ =>
    dsimp only at hmem
    obtain rfl : start = row := by omega
    exact absurd hfull (no8 hpaths)

/-- The same for a full group of four that no run of eight holds. -/
theorem four_mem (h : Cut paths live runs) (hpaths : paths = .wide8 ∨ paths = .wide4)
    (hfull : FullBlock live 4 row)
    (outside : paths = .wide8 → ∀ block, FullBlock live 8 block →
      row ∉ (Run.mk block 8).toList) : ⟨row, 4⟩ ∈ runs := by
  obtain ⟨run, hrun, hmem⟩ := h.exists_mem (hfull.live 0 (by decide))
  have haligned := hfull.aligned
  cases h.widest run hrun with
  | @eight start hpaths8 hfull' => exact absurd hmem (outside hpaths8 start hfull')
  | @four start _ hfull' _ =>
    have := hfull'.aligned
    rw [mem_toList] at hmem
    dsimp only at hmem
    obtain rfl : start = row := by omega
    exact hrun
  | @one start _ _ no4 =>
    rw [mem_toList] at hmem
    dsimp only at hmem
    obtain rfl : start = row := by omega
    exact absurd hfull (no4 hpaths)

/-- The runs are the ones to take for the live rows. -/
theorem mem_iff (h : Cut paths live runs) : run ∈ runs ↔ Taken paths live run := by
  -- a row of a run of eight is in no other run, and so with a group of four
  have outside8 : ∀ {run : Run} {row : Nat}, run ∈ runs → row ∈ run.toList → run.width < 8 →
      paths = .wide8 → ∀ block, FullBlock live 8 block → row ∉ (Run.mk block 8).toList := by
    intro run row hrun hrow hwidth hpaths block hblock hin
    obtain rfl := h.eq_of_mem hrun (h.eight_mem hpaths hblock) hrow hin
    exact absurd hwidth (Nat.lt_irrefl 8)
  constructor
  · intro hrun
    have hstart : run.start ∈ run.toList := by
      have := (h.widest run hrun).width_pos
      exact mem_toList.2 (by omega)
    cases h.widest run hrun with
    | eight hpaths hfull => exact .eight hpaths hfull
    | four hpaths hfull _ => exact .four hpaths hfull (outside8 hrun hstart (by dsimp only; omega))
    | @one row hlive _ _ =>
      have hout := outside8 hrun hstart (by dsimp only; omega)
      refine .one hlive hout fun hpaths group hgroup hin => ?_
      -- a group that holds the row would be a run of its own, unless a block of eight holds it
      refine absurd (h.eq_of_mem hrun (h.four_mem hpaths hgroup ?_) hstart hin) (by simp)
      intro hpaths8 block hblock hinside
      have hblocked := hout hpaths8 block hblock
      have haligned := hblock.aligned
      have haligned' := hgroup.aligned
      rw [mem_toList] at hblocked hin hinside
      dsimp only at hblocked hin hinside
      omega
  · intro htaken
    cases htaken with
    | eight hpaths hfull => exact h.eight_mem hpaths hfull
    | four hpaths hfull outside => exact h.four_mem hpaths hfull outside
    | @one row hlive outside8 outside4 =>
      obtain ⟨run, hrun, hmem⟩ := h.exists_mem hlive
      cases h.widest run hrun with
      | @eight start hpaths hfull => exact absurd hmem (outside8 hpaths start hfull)
      | @four start hpaths hfull _ => exact absurd hmem (outside4 hpaths start hfull)
      | @one start _ _ _ =>
        rw [mem_toList] at hmem
        dsimp only at hmem
        obtain rfl : start = row := by omega
        exact hrun

/-- Lists of runs for the same live rows are equal. -/
theorem eq_of_live_iff {live' : List Nat} {runs' : List Run} (h : Cut paths live runs)
    (h' : Cut paths live' runs') (hlive : ∀ r, r ∈ live ↔ r ∈ live') : runs' = runs := by
  have hnodup : ∀ {live : List Nat} {runs : List Run}, Cut paths live runs → runs.Nodup := by
    intro live runs h
    refine h.pairwise.imp_of_mem fun {a b} ha _ hab => ?_
    have := (h.widest a ha).width_pos
    rintro rfl
    omega
  refine List.Perm.eq_of_pairwise (fun a b ha _ hab hba => ?_) h'.pairwise h.pairwise
    ((List.perm_ext_iff_of_nodup (hnodup h') (hnodup h)).2 fun run => ?_)
  · have := (h'.widest a ha).width_pos
    omega
  · rw [h.mem_iff, h'.mem_iff]
    exact ⟨.congr fun r => (hlive r).symm, .congr hlive⟩

end Cut

end Cut

/-! ## The runs of a chain -/

/-- A chain whose links, followed from the start, stay inside the batch is cut into the runs to take
for its live rows, in ascending order and inside the batch; and so is any other such chain with the
same live rows, whatever its other links are. -/
theorem Closed.runs_taken {c : LiveChain} (hc : c.Closed) (paths : VectorPaths) :
    ∃ runs, c.runs paths = .ok runs ∧
      (∀ run, run ∈ runs ↔ Taken paths c.visited run) ∧
      runs.Pairwise (fun a b => a.start + a.width ≤ b.start) ∧
      (∀ run ∈ runs, run.start + run.width ≤ c.rows) ∧
      ∀ d : LiveChain, d.Closed → (∀ r, r ∈ c.visited ↔ r ∈ d.visited) →
        d.runs paths = .ok runs := by
  obtain ⟨runs, hruns, hcut⟩ := hc.cut paths
  refine ⟨runs, hruns, fun run => hcut.mem_iff, hcut.pairwise, fun run hrun => ?_,
    fun d hd hlive => ?_⟩
  · have hpos := (hcut.widest run hrun).width_pos
    have hlast : run.start + (run.width - 1) ∈ c.visited := by
      rw [← hcut.cover]
      exact List.mem_flatMap.2 ⟨run, hrun, mem_toList.2 (by omega)⟩
    have := lt_rows_of_mem_visited hlast
    omega
  · obtain ⟨runs', hruns', hcut'⟩ := hd.cut paths
    rw [hruns', hcut.eq_of_live_iff hcut' hlive]

/-- Rows 1 to 15 of 17 are live; the links of the other two lead astray. -/
def strayEnds : LiveChain := ⟨#[200, 1, 1, 1, 1, 1, 1, 1, 1, 1, 1, 1, 1, 1, 1, 0, 9], some 1, 15⟩

theorem closed_strayEnds : strayEnds.Closed := by
  intro row h
  cases h
  iterate 14 refine .step (by decide) (by decide) ?_
  exact .last (by decide) (by decide)

theorem visited_strayEnds : strayEnds.visited = List.range' 1 15 := by
  simp [strayEnds, visited, follow, List.range'_succ]

theorem runs_taken_strayEnds :
    strayEnds.Closed ∧ ∃ runs, strayEnds.runs .wide8 = .ok runs ∧
      (⟨3, 1⟩ ∈ runs ∧ ⟨4, 4⟩ ∈ runs ∧ ⟨8, 8⟩ ∈ runs) ∧
      (build 17 (List.range' 1 15)).runs .wide8 = .ok runs := by
  obtain ⟨runs, hruns, hmem, -, -, hsame⟩ := closed_strayEnds.runs_taken .wide8
  have hascending : Ascending 17 (List.range' 1 15) :=
    ⟨by decide, List.pairwise_lt_range' .., fun r hr => by rw [List.mem_range'_1] at hr; omega⟩
  refine ⟨closed_strayEnds, runs, hruns, ?_, hsame _ (closed_build hascending) fun r => ?_⟩
  · simp only [hmem, visited_strayEnds]
    refine ⟨.one (by decide) (fun _ block hblock hin => ?_) (fun _ group hgroup hin => ?_),
      .four (.inl rfl) ⟨rfl, by decide⟩ fun _ block hblock hin => ?_,
      .eight rfl ⟨rfl, by decide⟩⟩
    all_goals
      rw [mem_toList] at hin
      have hfirst := List.mem_range'_1.1 (FullBlock.live ‹_› 0 (by decide))
      have haligned := FullBlock.aligned ‹_›
      dsimp only at hin
      omega
  · rw [visited_strayEnds, visited_build hascending]

end BatchShader.LiveChain
