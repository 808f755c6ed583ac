import BatchShader.LiveChain

/-
  What a chain visits.

  `Linked links row`: following the links from `row` stays inside the batch. `Closed c` says so of
  a chain's start; nothing is asked of the links of other rows. Any walk goes upwards
  (`follow_pairwise`), so a row is visited at most once.

  `Canonical c`: the chain is the one that `build` makes for the rows it visits, in a batch within
  the size limit. Every way to make a chain, foreign bytes apart, gives a canonical one
  (`Built.canonical`), and narrowing keeps exactly the rows asked for (`visited_filter`).
  `ofMask_mapIdx` says the same of masks.
-/

namespace BatchShader.LiveChain

/-! ## Walks -/

/-- Following the links from a row stays inside the batch until a link `0` ends the walk. -/
inductive Linked (links : Array UInt8) : Nat → Prop
  | last {row : Nat} (h : row < links.size) (end_ : links[row].toNat = 0) : Linked links row
  | step {row : Nat} (h : row < links.size) (go : 0 < links[row].toNat)
      (next : Linked links (row + links[row].toNat)) : Linked links row

/-- Following the links from the start stays inside the batch. -/
def Closed (c : LiveChain) : Prop := ∀ row, c.start = some row → Linked c.links row

theorem Linked.lt_size {links : Array UInt8} {row : Nat} (h : Linked links row) :
    row < links.size := by
  cases h <;> assumption

theorem follow_of_zero {links : Array UInt8} {row : Nat} (h : row < links.size)
    (hz : links[row].toNat = 0) : follow links row = [row] := by
  rw [follow, dif_pos h, if_neg (by omega)]

theorem follow_of_pos {links : Array UInt8} {row : Nat} (h : row < links.size)
    (hp : 0 < links[row].toNat) :
    follow links row = row :: follow links (row + links[row].toNat) := by
  rw [follow, dif_pos h, if_pos hp]

/-- A walk visits rows of the batch, none before its start. -/
theorem mem_follow_bounds (links : Array UInt8) (row r : Nat) (hr : r ∈ follow links row) :
    row ≤ r ∧ r < links.size := by
  fun_induction follow links row with
  | case1 row h hp ih =>
    rcases List.mem_cons.1 hr with rfl | hr
    · exact ⟨Nat.le_refl _, h⟩
    · have := ih hr
      omega
  | case2 row h hp =>
    rw [List.mem_singleton] at hr
    omega
  | case3 row h => cases hr

/-- A walk goes upwards. -/
theorem follow_pairwise (links : Array UInt8) (row : Nat) :
    (follow links row).Pairwise (· < ·) := by
  fun_induction follow links row with
  | case1 row h hp ih =>
    refine List.pairwise_cons.2 ⟨fun r hr => ?_, ih⟩
    have := (mem_follow_bounds links _ r hr).1
    omega
  | case2 row h hp => exact List.pairwise_singleton _ _
  | case3 row h => exact List.Pairwise.nil

theorem visited_pairwise (c : LiveChain) : c.visited.Pairwise (· < ·) := by
  unfold visited
  split
  · exact follow_pairwise _ _
  · exact List.Pairwise.nil

theorem visited_nodup (c : LiveChain) : c.visited.Nodup :=
  c.visited_pairwise.imp Nat.ne_of_lt

theorem lt_rows_of_mem_visited {c : LiveChain} {r : Nat} (h : r ∈ c.visited) : r < c.rows := by
  unfold visited at h
  split at h
  · exact (mem_follow_bounds _ _ r h).2
  · cases h

/-! ## Chains made for a list of rows -/

/-- An ascending list of rows of a batch within the size limit. -/
structure Ascending (rows : Nat) (live : List Nat) : Prop where
  limit : rows ≤ maxBatchRows
  pairwise : live.Pairwise (· < ·)
  bound : ∀ r ∈ live, r < rows

theorem Ascending.nil {rows : Nat} (h : rows ≤ maxBatchRows) : Ascending rows [] :=
  ⟨h, List.Pairwise.nil, fun _ hr => nomatch hr⟩

theorem Ascending.filter {rows : Nat} {live : List Nat} (h : Ascending rows live)
    (keep : Nat → Bool) : Ascending rows (live.filter keep) :=
  ⟨h.limit, h.pairwise.filter keep, fun r hr => h.bound r (List.mem_filter.1 hr).1⟩

theorem Ascending.range {rows : Nat} (h : rows ≤ maxBatchRows) :
    Ascending rows (List.range rows) :=
  ⟨h, List.pairwise_lt_range, fun _ hr => List.mem_range.1 hr⟩

theorem ascending_visited {c : LiveChain} (h : c.rows ≤ maxBatchRows) :
    Ascending c.rows c.visited :=
  ⟨h, c.visited_pairwise, fun _ hr => lt_rows_of_mem_visited hr⟩

theorem ascending_liveRows {mask : Array Bool} (h : mask.size ≤ maxBatchRows) :
    Ascending mask.size (liveRows mask) :=
  (Ascending.range h).filter _

/-- Linking up an ascending list leaves the rows before it as they are. -/
theorem getElem?_linkUp_of_lt (live : List Nat) (links : Array UInt8) (i : Nat)
    (h : ∀ r ∈ live, i < r) : (linkUp live links)[i]? = links[i]? := by
  induction live generalizing links with
  | nil => rfl
  | cons a rest ih =>
    cases rest with
    | nil => rfl
    | cons b rest =>
      rw [linkUp, ih _ fun r hr => h r (List.mem_cons_of_mem a hr),
        Array.getElem?_setIfInBounds_ne]
      have := h a List.mem_cons_self
      omega

/-- Following the links made for an ascending list, where all were `0` before, gives the list, and
the walk stays inside the batch. -/
theorem follow_linkUp (a : Nat) (rest : List Nat) (links : Array UInt8)
    (hs : links.size ≤ maxBatchRows) (hp : (a :: rest).Pairwise (· < ·))
    (hz : ∀ r ∈ a :: rest, links[r]? = some 0) :
    follow (linkUp (a :: rest) links) a = a :: rest ∧ Linked (linkUp (a :: rest) links) a := by
  induction rest generalizing a links with
  | nil =>
    obtain ⟨ha, h0⟩ := Array.getElem?_eq_some_iff.1 (hz a List.mem_cons_self)
    have hz : links[a].toNat = 0 := by rw [h0]; rfl
    exact ⟨follow_of_zero ha hz, .last ha hz⟩
  | cons b rest ih =>
    have hab : a < b := (List.pairwise_cons.1 hp).1 b List.mem_cons_self
    have hb : b < links.size :=
      (Array.getElem?_eq_some_iff.1 (hz b (List.mem_cons_of_mem a List.mem_cons_self))).1
    have hlt : ∀ r ∈ b :: rest, a < r := (List.pairwise_cons.1 hp).1
    have hdelta : (UInt8.ofNat (b - a)).toNat = b - a := by
      rw [UInt8.toNat_ofNat']
      simp only [maxBatchRows] at hs
      omega
    -- the link of `a` is written first and not touched again
    have hget : (linkUp (a :: b :: rest) links)[a]? = some (UInt8.ofNat (b - a)) := by
      rw [linkUp, getElem?_linkUp_of_lt _ _ _ hlt,
        Array.getElem?_setIfInBounds_self_of_lt (by omega)]
    obtain ⟨ha, hval⟩ := Array.getElem?_eq_some_iff.1 hget
    have hto : (linkUp (a :: b :: rest) links)[a].toNat = b - a := by rw [hval, hdelta]
    obtain ⟨ih1, ih2⟩ := ih b (links.setIfInBounds a (UInt8.ofNat (b - a)))
      (by rw [Array.size_setIfInBounds]; exact hs) (List.pairwise_cons.1 hp).2 fun r hr => by
        rw [Array.getElem?_setIfInBounds_ne (by have := hlt r hr; omega)]
        exact hz r (List.mem_cons_of_mem a hr)
    have hnext : a + (linkUp (a :: b :: rest) links)[a].toNat = b := by omega
    constructor
    · rw [follow_of_pos ha (by omega), hnext, linkUp, ih1]
    · exact .step ha (by omega) (by rw [hnext, linkUp]; exact ih2)

theorem getElem?_replicate_zero {rows r : Nat} (h : r < rows) :
    (Array.replicate rows (0 : UInt8))[r]? = some 0 := by
  rw [Array.getElem?_replicate, if_pos h]

/-- The chain made for an ascending list visits the list. -/
theorem visited_build {rows : Nat} {live : List Nat} (h : Ascending rows live) :
    (build rows live).visited = live := by
  cases live with
  | nil => rfl
  | cons a rest =>
    exact (follow_linkUp a rest _ (by rw [Array.size_replicate]; exact h.limit) h.pairwise
      fun r hr => getElem?_replicate_zero (h.bound r hr)).1

theorem closed_build {rows : Nat} {live : List Nat} (h : Ascending rows live) :
    (build rows live).Closed := by
  intro row hrow
  cases live with
  | nil => cases hrow
  | cons a rest =>
    obtain rfl : a = row := Option.some.inj hrow
    exact (follow_linkUp a rest _ (by rw [Array.size_replicate]; exact h.limit) h.pairwise
      fun r hr => getElem?_replicate_zero (h.bound r hr)).2

/-! ## Canonical chains -/

/-- The chain is the one made for the rows it visits. -/
structure Canonical (c : LiveChain) : Prop where
  limit : c.rows ≤ maxBatchRows
  eq_build : build c.rows c.visited = c

theorem canonical_build {rows : Nat} {live : List Nat} (h : Ascending rows live) :
    (build rows live).Canonical where
  limit := by rw [rows_build]; exact h.limit
  eq_build := by rw [rows_build, visited_build h]

theorem Canonical.closed {c : LiveChain} (h : c.Canonical) : c.Closed := by
  rw [← h.eq_build]
  exact closed_build (ascending_visited h.limit)

/-- Canonical chains over as many rows that visit the same rows are equal. -/
theorem Canonical.ext {c d : LiveChain} (hc : c.Canonical) (hd : d.Canonical)
    (hr : c.rows = d.rows) (hv : c.visited = d.visited) : c = d := by
  rw [← hc.eq_build, ← hd.eq_build, hr, hv]

theorem Canonical.isEmpty_iff {c : LiveChain} (h : c.Canonical) :
    c.isEmpty = true ↔ c.visited = [] := by
  rw [← h.eq_build, visited_build (ascending_visited h.limit)]
  cases c.visited <;> simp [isEmpty, build]

theorem Canonical.isEmpty_eq_false_iff {c : LiveChain} (h : c.Canonical) :
    c.isEmpty = false ↔ ∃ r, r ∈ c.visited := by
  rw [Bool.eq_false_iff, ne_eq, h.isEmpty_iff]
  exact ⟨List.exists_mem_of_ne_nil _, fun ⟨_, hr⟩ => List.ne_nil_of_mem hr⟩

/-- A filter visits the rows that are kept. The chain need not be canonical, but must be within the
size limit. -/
theorem visited_filter {c : LiveChain} (h : c.rows ≤ maxBatchRows) (keep : Nat → Bool) :
    (c.filter keep).visited = c.visited.filter keep :=
  visited_build ((ascending_visited h).filter keep)

theorem canonical_filter {c : LiveChain} (h : c.rows ≤ maxBatchRows) (keep : Nat → Bool) :
    (c.filter keep).Canonical :=
  canonical_build ((ascending_visited h).filter keep)

/-- Rows that a filter keeps were live. -/
theorem mem_of_mem_filter {c : LiveChain} (h : c.rows ≤ maxBatchRows) {keep : Nat → Bool} :
    ∀ r ∈ (c.filter keep).visited, r ∈ c.visited := fun r hr => by
  rw [visited_filter h] at hr
  exact (List.mem_filter.1 hr).1

/-- Rows that a filter drops are not among those it keeps. -/
theorem not_mem_filter_of_mem_filter_not {c : LiveChain} (h : c.rows ≤ maxBatchRows)
    {keep : Nat → Bool} {r : Nat} (hr : r ∈ (c.filter fun row => !keep row).visited) :
    r ∉ (c.filter keep).visited := by
  rw [visited_filter h, List.mem_filter] at hr ⊢
  rintro ⟨-, hkeep⟩
  simp [hkeep] at hr

/-- A filter that keeps every live row changes nothing. -/
theorem Canonical.filter_eq_self {c : LiveChain} (h : c.Canonical) {keep : Nat → Bool}
    (hk : ∀ r ∈ c.visited, keep r = true) : c.filter keep = c := by
  refine (canonical_filter h.limit keep).ext h (rows_filter c keep) ?_
  rw [visited_filter h.limit, List.filter_eq_self.2 hk]

theorem filter_filter {c : LiveChain} (h : c.rows ≤ maxBatchRows) (keep keep' : Nat → Bool) :
    (c.filter keep).filter keep' = c.filter fun r => keep r && keep' r := by
  rw [filter, rows_filter, visited_filter h, List.filter_filter, filter]
  congr 2
  exact funext fun r => Bool.and_comm ..

theorem canonical_cleared {c : LiveChain} (h : c.rows ≤ maxBatchRows) : c.cleared.Canonical :=
  canonical_build (.nil h)

@[simp] theorem visited_cleared (c : LiveChain) : c.cleared.visited = [] := rfl

@[simp] theorem rows_cleared (c : LiveChain) : c.cleared.rows = c.rows := rows_build ..

/-- A filter that keeps no live row clears the chain. -/
theorem filter_eq_cleared {c : LiveChain} {keep : Nat → Bool}
    (hk : ∀ r ∈ c.visited, keep r = false) : c.filter keep = c.cleared := by
  unfold filter cleared
  rw [List.filter_eq_nil_iff.2 fun r hr => by simp [hk r hr]]

/-! ## The ways to make a chain -/

theorem checkRows_eq_ok {rows : Nat} {u : Unit} :
    checkRows rows = .ok u ↔ rows ≤ maxBatchRows := by
  unfold checkRows
  split <;> simp [*, Outcome.fail]

/-- The chains that arise without foreign bytes. -/
inductive Built : LiveChain → Prop
  | full {rows : Nat} {c : LiveChain} (h : full rows = .ok c) : Built c
  | empty {rows : Nat} {c : LiveChain} (h : empty rows = .ok c) : Built c
  | ofMask {mask : Array Bool} {c : LiveChain} (h : ofMask mask = .ok c) : Built c
  | ofRows {rows : Nat} {live : List Nat} {c : LiveChain} (h : ofRows rows live = .ok c) : Built c
  | filter {c : LiveChain} (hc : Built c) (keep : Nat → Bool) : Built (c.filter keep)
  | splitTrue {c yes no : LiveChain} {cond : Array Bool} (hc : Built c)
      (h : c.split cond = .ok (yes, no)) : Built yes
  | splitFalse {c yes no : LiveChain} {cond : Array Bool} (hc : Built c)
      (h : c.split cond = .ok (yes, no)) : Built no

theorem full_eq_ok {rows : Nat} {c : LiveChain} (h : full rows = .ok c) :
    rows ≤ maxBatchRows ∧ c = build rows (List.range rows) := by
  obtain ⟨_, hr, h⟩ := Outcome.bind_eq_ok.1 h
  exact ⟨checkRows_eq_ok.1 hr, (Except.ok.inj h).symm⟩

theorem ofMask_eq_ok {mask : Array Bool} {c : LiveChain} (h : ofMask mask = .ok c) :
    mask.size ≤ maxBatchRows ∧ c = build mask.size (liveRows mask) := by
  obtain ⟨_, hr, h⟩ := Outcome.bind_eq_ok.1 h
  exact ⟨checkRows_eq_ok.1 hr, (Except.ok.inj h).symm⟩

theorem canonical_of_full {rows : Nat} {c : LiveChain} (h : full rows = .ok c) :
    c.Canonical := by
  obtain ⟨hr, rfl⟩ := full_eq_ok h
  exact canonical_build (.range hr)

theorem canonical_of_ofMask {mask : Array Bool} {c : LiveChain} (h : ofMask mask = .ok c) :
    c.Canonical := by
  obtain ⟨hr, rfl⟩ := ofMask_eq_ok h
  exact canonical_build (ascending_liveRows hr)

/-- The two parts of a split. Every live row had a condition. -/
theorem split_eq_ok {c yes no : LiveChain} {cond : Array Bool}
    (h : c.split cond = .ok (yes, no)) :
    (∀ r ∈ c.visited, r < cond.size) ∧ yes = c.filter (cond.getD · false) ∧
      no = c.filter fun row => !cond.getD row false := by
  unfold split at h
  split at h
  · next hall =>
    cases h
    exact ⟨by simpa using hall, rfl, rfl⟩
  · cases h

theorem Built.canonical {c : LiveChain} (h : Built c) : c.Canonical := by
  induction h with
  | full h => exact canonical_of_full h
  | empty h =>
    obtain ⟨_, hr, h⟩ := Outcome.bind_eq_ok.1 h
    cases h
    exact canonical_build (.nil (checkRows_eq_ok.1 hr))
  | ofMask h => exact canonical_of_ofMask h
  | ofRows h =>
    obtain ⟨_, -, h⟩ := Outcome.bind_eq_ok.1 h
    obtain ⟨_, -, h⟩ := Outcome.bind_eq_ok.1 h
    exact canonical_of_ofMask h
  | filter _ keep ih => exact canonical_filter ih.limit keep
  | splitTrue _ h ih =>
    rw [(split_eq_ok h).2.1]
    exact canonical_filter ih.limit _
  | splitFalse _ h ih =>
    rw [(split_eq_ok h).2.2]
    exact canonical_filter ih.limit _

/-! ## Masks -/

theorem getD_foldl_setTrue (rows : List Nat) (d : Array Bool) (r : Nat) :
    (rows.foldl (fun d row => d.setIfInBounds row true) d).getD r false =
      (decide (r ∈ rows ∧ r < d.size) || d.getD r false) := by
  induction rows generalizing d with
  | nil => simp
  | cons row rows ih =>
    rw [List.foldl_cons, ih, Array.size_setIfInBounds]
    by_cases hr : r = row
    · subst hr
      by_cases hlt : r < d.size
      · simp [hlt]
      · simp [hlt, Array.getD]
    · have hget : (d.setIfInBounds row true).getD r false = d.getD r false := by
        rw [Array.getD_eq_getD_getElem?, Array.getD_eq_getD_getElem?,
          Array.getElem?_setIfInBounds_ne (Ne.symm hr)]
      rw [hget]
      simp [hr]

theorem size_foldl_setTrue (rows : List Nat) (d : Array Bool) :
    (rows.foldl (fun d row => d.setIfInBounds row true) d).size = d.size := by
  induction rows generalizing d with
  | nil => rfl
  | cons row rows ih => rw [List.foldl_cons, ih, Array.size_setIfInBounds]

theorem liveRows_replicate_true (rows : Nat) :
    liveRows (Array.replicate rows true) = List.range rows := by
  unfold liveRows
  rw [Array.size_replicate, List.filter_eq_self]
  intro r hr
  simp [Array.getD, List.mem_range.1 hr]

/-- All rows are the rows of the mask that is set everywhere. -/
theorem full_eq_ofMask (rows : Nat) : full rows = ofMask (Array.replicate rows true) := by
  unfold full ofMask
  rw [Array.size_replicate, liveRows_replicate_true]

theorem mem_liveRows {mask : Array Bool} {r : Nat} :
    r ∈ liveRows mask ↔ mask.getD r false = true := by
  rw [liveRows, List.mem_filter, List.mem_range, and_iff_right_iff_imp]
  intro hr
  by_cases hsize : r < mask.size
  · exact hsize
  · simp [Array.getD, hsize] at hr

theorem mem_visited_ofMask {mask : Array Bool} {c : LiveChain} (h : ofMask mask = .ok c) {r : Nat} :
    r ∈ c.visited ↔ mask.getD r false = true := by
  obtain ⟨hsize, rfl⟩ := ofMask_eq_ok h
  rw [visited_build (ascending_liveRows hsize), mem_liveRows]

theorem liveRows_mapIdx (mask : Array Bool) (keep : Nat → Bool) :
    liveRows (mask.mapIdx fun r live => live && keep r) = (liveRows mask).filter keep := by
  unfold liveRows
  rw [Array.size_mapIdx, List.filter_filter]
  refine List.filter_congr fun r hr => ?_
  simp [Array.getD, List.mem_range.1 hr, Bool.and_comm]

/-- Dropping rows from a chain is dropping them from its mask. -/
theorem ofMask_mapIdx {mask : Array Bool} {c : LiveChain} (h : ofMask mask = .ok c)
    (keep : Nat → Bool) :
    ofMask (mask.mapIdx fun r live => live && keep r) = .ok (c.filter keep) := by
  obtain ⟨hsize, rfl⟩ := ofMask_eq_ok h
  have hcheck : checkRows mask.size = .ok () := checkRows_eq_ok.2 hsize
  rw [filter, rows_build, visited_build (ascending_liveRows hsize), ofMask, Array.size_mapIdx,
    hcheck, Outcome.ok_bind, liveRows_mapIdx]
  rfl

end BatchShader.LiveChain
