import BatchShader.Proofs.LiveChain
import BatchShader.Proofs.Sequence
import Mathlib.Data.Finset.Card
import Mathlib.Data.List.Sort

/-
  Chains as sets of rows.

  `Made n live c`: the chain `c` over `n` rows was made without foreign bytes, and `live` is the set
  of rows that the way it was made leaves live; the set is reckoned beside the chain and never read
  off it. `Encodes n live c`: one byte for each row holds that set, in the only way there is.

  Whatever is made encodes its set (`Made.encodes`), so that a chain is known from the number of its
  rows and its set (`Encodes.eq_iff`). Foreign bytes may encode nothing, but an iterator over them
  still ends (`yields_visited`), and narrowing such a chain gives one that encodes a set
  (`encodes_filter`).
-/

namespace BatchShader.LiveChain

/-! ## Iteration -/

/-- One call of an iterator over the live rows: the row it has come to, and where it goes on. -/
def advance (links : Array UInt8) (next : Option Nat) : Option (Nat × Option Nat) := do
  let row ← next
  let delta ← links[row]?
  return (row, if delta = 0 then none else some (row + delta.toNat))

/-- Calls of the iterator yield the rows of the list in turn and then nothing more. -/
inductive Yields (links : Array UInt8) : Option Nat → List Nat → Prop
  | done {next : Option Nat} (h : advance links next = none) : Yields links next []
  | row {next next' : Option Nat} {row : Nat} {rows : List Nat}
      (h : advance links next = some (row, next')) (rest : Yields links next' rows) :
      Yields links next (row :: rows)

theorem yields_none (links : Array UInt8) : Yields links none [] := .done rfl

theorem advance_of_lt {links : Array UInt8} {row : Nat} (h : row < links.size) :
    advance links (some row) =
      some (row, if links[row] = 0 then none else some (row + links[row].toNat)) := by
  simp [advance, h]

theorem toNat_pos_iff {byte : UInt8} : 0 < byte.toNat ↔ byte ≠ 0 := by
  rw [ne_eq, ← UInt8.toNat_inj, UInt8.toNat_zero, Nat.pos_iff_ne_zero]

theorem yields_follow (links : Array UInt8) (row : Nat) :
    Yields links (some row) (follow links row) := by
  fun_induction follow links row with
  | case1 row h hp ih =>
    refine .row ?_ ih
    rw [advance_of_lt h, if_neg (toNat_pos_iff.1 hp)]
  | case2 row h hp =>
    refine .row ?_ (yields_none links)
    rw [advance_of_lt h, if_pos (not_not.1 (toNat_pos_iff.not.1 hp))]
  | case3 row h => exact .done (by simp [advance, h])

/-- The iterator over a chain ends, and `visited` is what it yields. -/
theorem yields_visited (c : LiveChain) : Yields c.links c.start c.visited := by
  unfold visited
  split
  · next row h =>
    rw [h]
    exact yields_follow c.links row
  · next h =>
    rw [h]
    exact yields_none c.links

/-- A chain visits no more rows than there are. -/
theorem length_visited_le (c : LiveChain) : c.visited.length ≤ c.rows := by
  have hsub : c.visited ⊆ List.range c.rows := fun r hr =>
    List.mem_range.2 (lt_rows_of_mem_visited hr)
  have hlength := (List.subperm_of_subset c.visited_nodup hsub).length_le
  rwa [List.length_range] at hlength

/-- Ascending lists with the same members are equal. -/
theorem eq_of_mem_iff {l l' : List Nat} (h : l.Pairwise (· < ·)) (h' : l'.Pairwise (· < ·))
    (hmem : ∀ r, r ∈ l ↔ r ∈ l') : l = l' :=
  List.Perm.eq_of_pairwise' h h'
    ((List.perm_ext_iff_of_nodup (h.imp Nat.ne_of_lt) (h'.imp Nat.ne_of_lt)).2 hmem)

/-! ## Link bytes -/

/-- Linking up a list writes no link of a row that is the last one or not in the list. -/
theorem getElem?_linkUp_of_not_mem (live : List Nat) (links : Array UInt8) {r : Nat}
    (h : r ∉ live.dropLast) : (linkUp live links)[r]? = links[r]? := by
  induction live generalizing links with
  | nil => rfl
  | cons a rest ih =>
    cases rest with
    | nil => rfl
    | cons b rest =>
      rw [List.dropLast_cons_cons, List.mem_cons, not_or] at h
      rw [linkUp, ih _ h.2, Array.getElem?_setIfInBounds_ne (Ne.symm h.1)]

/-- Linking up an ascending list writes to each row the distance to the row after it. -/
theorem getElem?_linkUp_of_next (before : List Nat) {r r' : Nat} {after : List Nat}
    (links : Array UInt8) (hp : (before ++ r :: r' :: after).Pairwise (· < ·))
    (hr : r < links.size) :
    (linkUp (before ++ r :: r' :: after) links)[r]? = some (UInt8.ofNat (r' - r)) := by
  induction before generalizing links with
  | nil =>
    rw [List.nil_append, linkUp, getElem?_linkUp_of_lt _ _ _ (List.pairwise_cons.1 hp).1,
      Array.getElem?_setIfInBounds_self_of_lt hr]
  | cons a before ih =>
    obtain ⟨b, rest, hrest⟩ : ∃ b rest, before ++ r :: r' :: after = b :: rest :=
      List.exists_cons_of_ne_nil (by simp)
    rw [List.cons_append, hrest, linkUp, ← hrest]
    refine ih _ (List.pairwise_cons.1 hp).2 ?_
    rw [Array.size_setIfInBounds]
    exact hr

/-! ## Sets of live rows -/

/-- The chains that arise without foreign bytes, each with the number of its rows and the set of
those that are to be live. -/
inductive Made : Nat → Finset Nat → LiveChain → Prop
  | full {n : Nat} {c : LiveChain} (h : full n = .ok c) : Made n (Finset.range n) c
  | empty {n : Nat} {c : LiveChain} (h : empty n = .ok c) : Made n ∅ c
  | ofMask {mask : Array Bool} {c : LiveChain} (h : ofMask mask = .ok c) :
      Made mask.size ((Finset.range mask.size).filter fun r => mask.getD r false = true) c
  | ofRows {n : Nat} {rows : List Nat} {c : LiveChain} (h : ofRows n rows = .ok c) :
      Made n rows.toFinset c
  | filter {n : Nat} {live : Finset Nat} {c : LiveChain} (hc : Made n live c)
      (keep : Nat → Bool) : Made n (live.filter fun r => keep r = true) (c.filter keep)
  | splitTrue {n : Nat} {live : Finset Nat} {c yes no : LiveChain} {cond : Array Bool}
      (hc : Made n live c) (h : c.split cond = .ok (yes, no)) :
      Made n (live.filter fun r => cond.getD r false = true) yes
  | splitFalse {n : Nat} {live : Finset Nat} {c yes no : LiveChain} {cond : Array Bool}
      (hc : Made n live c) (h : c.split cond = .ok (yes, no)) :
      Made n (live.filter fun r => cond.getD r false = false) no

/-- Two rows of a set with none between them. -/
structure Consecutive (live : Finset Nat) (r r' : Nat) : Prop where
  left : r ∈ live
  right : r' ∈ live
  lt : r < r'
  between : ∀ s ∈ live, s ≤ r ∨ r' ≤ s

/-- The chain holds the set `live` of rows of a batch of `n`: an iterator over it yields the set in
ascending order, its mask, count and emptiness are those of the set, each link is the distance to
the next live row or `0`, and it can be made again from its mask or from its bytes. -/
structure Encodes (n : Nat) (live : Finset Nat) (c : LiveChain) : Prop where
  rows_eq : c.rows = n
  yields : Yields c.links c.start c.visited
  pairwise : c.visited.Pairwise (· < ·)
  mem_visited : ∀ r, r ∈ c.visited ↔ r ∈ live
  size_toMask : c.toMask.size = n
  getD_toMask : ∀ r, c.toMask.getD r false = true ↔ r ∈ live
  count_eq : c.count = live.card
  isEmpty_iff : c.isEmpty = true ↔ live = ∅
  distance : ∀ r r', Consecutive live r r' →
    ∃ byte : UInt8, c.links[r]? = some byte ∧ byte.toNat = r' - r
  zero : ∀ r < n, (r ∉ live ∨ ∀ s ∈ live, s ≤ r) → c.links[r]? = some 0
  ofMask_toMask : ofMask c.toMask = .ok c
  ofLinks_links : ofLinks c.links c.start = .ok c

/-! ## Canonical chains encode what they visit -/

section Canonical

variable {c : LiveChain} {live : Finset Nat}

theorem size_toMask (c : LiveChain) : c.toMask.size = c.rows := by
  rw [toMask, size_foldl_setTrue, Array.size_replicate]

theorem getD_toMask (c : LiveChain) (r : Nat) :
    c.toMask.getD r false = true ↔ r ∈ c.visited := by
  have hnone : (Array.replicate c.rows false).getD r false = false := by
    simp [Array.getD]
  rw [toMask, getD_foldl_setTrue, hnone, Bool.or_false, decide_eq_true_iff, Array.size_replicate]
  exact ⟨And.left, fun h => ⟨h, lt_rows_of_mem_visited h⟩⟩

/-- Any chain that visits what a mask says is known from the mask once it is canonical. -/
theorem Canonical.ofMask_toMask (h : c.Canonical) : ofMask c.toMask = .ok c := by
  have hcheck : checkRows c.toMask.size = .ok () := by
    rw [size_toMask]
    exact checkRows_eq_ok.2 h.limit
  have hlive : liveRows c.toMask = c.visited := by
    refine eq_of_mem_iff (List.pairwise_lt_range.filter _) c.visited_pairwise fun r => ?_
    rw [mem_liveRows, getD_toMask]
  rw [ofMask, hcheck, Outcome.ok_bind, hlive, size_toMask, h.eq_build]
  rfl

theorem Canonical.count_eq (h : c.Canonical) : c.count = c.visited.length := by
  have hcount := congrArg count h.eq_build
  exact hcount.symm

/-- Foreign bytes are adopted as they are, if there are not too many. -/
theorem ofLinks_eq_ok {links : Array UInt8} (h : links.size ≤ maxBatchRows) (start : Option Nat) :
    ofLinks links start = .ok ⟨links, start, (LiveChain.mk links start 0).visited.length⟩ := by
  have hcheck : checkRows links.size = .ok () := checkRows_eq_ok.2 h
  rw [ofLinks, hcheck]
  rfl

theorem Canonical.ofLinks_links (h : c.Canonical) : ofLinks c.links c.start = .ok c := by
  rw [ofLinks_eq_ok h.limit]
  have hvisited : (LiveChain.mk c.links c.start 0).visited = c.visited := rfl
  rw [hvisited, ← h.count_eq]

/-- The link of a live row is the distance to the next one; batches are small enough for that to
be a byte. -/
theorem Canonical.distance (h : c.Canonical) (hlive : ∀ r, r ∈ c.visited ↔ r ∈ live) {r r' : Nat}
    (hnext : Consecutive live r r') :
    ∃ byte : UInt8, c.links[r]? = some byte ∧ byte.toNat = r' - r := by
  have hr : r ∈ c.visited := (hlive r).2 hnext.left
  have hr' : r' ∈ c.visited := (hlive r').2 hnext.right
  have hsorted := c.visited_pairwise
  -- the rows of the chain around `r`: what follows `r` begins with `r'`
  obtain ⟨before, rest, hsplit⟩ := List.append_of_mem hr
  obtain ⟨after, rfl⟩ : ∃ after, rest = r' :: after := by
    rw [hsplit, List.pairwise_append, List.pairwise_cons] at hsorted
    obtain ⟨-, ⟨hafter, hrest⟩, hbefore⟩ := hsorted
    have hmem : r' ∈ rest := by
      rw [hsplit, List.mem_append, List.mem_cons] at hr'
      obtain hr' | rfl | hr' := hr'
      · have := hbefore r' hr' r List.mem_cons_self
        have := hnext.lt
        omega
      · exact absurd hnext.lt (Nat.lt_irrefl _)
      · exact hr'
    obtain ⟨s, after, rfl⟩ := List.exists_cons_of_ne_nil (List.ne_nil_of_mem hmem)
    have hs : s ∈ live := (hlive s).1 (by rw [hsplit]; simp)
    have hrs : r < s := hafter s List.mem_cons_self
    have hle : r' ≤ s := (hnext.between s hs).resolve_left (by omega)
    obtain rfl | hr' := List.mem_cons.1 hmem
    · exact ⟨after, rfl⟩
    · have := (List.pairwise_cons.1 hrest).1 r' hr'
      omega
  have hlt : r' < c.rows := lt_rows_of_mem_visited hr'
  have hlimit := h.limit
  refine ⟨UInt8.ofNat (r' - r), ?_, ?_⟩
  · have hlinks : c.links = linkUp c.visited (Array.replicate c.rows 0) :=
      (congrArg links h.eq_build).symm
    rw [hsplit] at hsorted
    rw [hlinks, hsplit, getElem?_linkUp_of_next before _ hsorted]
    rw [Array.size_replicate]
    exact lt_rows_of_mem_visited hr
  · rw [UInt8.toNat_ofNat']
    simp only [maxBatchRows] at hlimit
    omega

/-- Rows that are not live have the link `0`, and so has the last live one. -/
theorem Canonical.zero (h : c.Canonical) (hlive : ∀ r, r ∈ c.visited ↔ r ∈ live) {r : Nat}
    (hr : r < c.rows) (hlast : r ∉ live ∨ ∀ s ∈ live, s ≤ r) : c.links[r]? = some 0 := by
  have hunlinked : r ∉ c.visited.dropLast := by
    intro hmem
    obtain hdead | hlast := hlast
    · exact hdead ((hlive r).1 (List.mem_of_mem_dropLast hmem))
    · have hne : c.visited ≠ [] := List.ne_nil_of_mem (List.mem_of_mem_dropLast hmem)
      have hsorted := c.visited_pairwise
      rw [← List.dropLast_append_getLast hne, List.pairwise_append] at hsorted
      have hlt := hsorted.2.2 r hmem _ List.mem_cons_self
      have hle := hlast _ ((hlive _).1 (List.getLast_mem hne))
      omega
  have hlinks : c.links = linkUp c.visited (Array.replicate c.rows 0) :=
    (congrArg links h.eq_build).symm
  rw [hlinks, getElem?_linkUp_of_not_mem _ _ hunlinked, getElem?_replicate_zero hr]

theorem Canonical.encodes (h : c.Canonical) (hlive : ∀ r, r ∈ c.visited ↔ r ∈ live) :
    Encodes c.rows live c where
  rows_eq := rfl
  yields := c.yields_visited
  pairwise := c.visited_pairwise
  mem_visited := hlive
  size_toMask := c.size_toMask
  getD_toMask r := (c.getD_toMask r).trans (hlive r)
  count_eq := by
    have hset : c.visited.toFinset = live := by
      ext r
      rw [List.mem_toFinset, hlive]
    rw [h.count_eq, ← hset, List.toFinset_card_of_nodup c.visited_nodup]
  isEmpty_iff := by
    rw [h.isEmpty_iff, Finset.eq_empty_iff_forall_notMem, List.eq_nil_iff_forall_not_mem]
    exact forall_congr' fun r => (hlive r).not
  distance _ _ := h.distance hlive
  zero _ := h.zero hlive
  ofMask_toMask := h.ofMask_toMask
  ofLinks_links := h.ofLinks_links

end Canonical

/-! ## What is made encodes its set -/

section Made

variable {n : Nat} {live : Finset Nat} {c : LiveChain}

theorem markRows_eq_ok {n : Nat} {rows : List Nat} {mask mask' : Array Bool}
    (h : markRows n rows mask = .ok mask') :
    (∀ r ∈ rows, r < mask.size) ∧
      mask' = rows.foldl (fun mask row => mask.setIfInBounds row true) mask := by
  induction rows generalizing mask with
  | nil => exact ⟨List.forall_mem_nil _, (Except.ok.inj h).symm⟩
  | cons row rows ih =>
    rw [markRows] at h
    split at h
    · next hlt =>
      obtain ⟨hbound, heq⟩ := ih h
      rw [Array.size_setIfInBounds] at hbound
      exact ⟨List.forall_mem_cons.2 ⟨hlt, hbound⟩, heq⟩
    · cases h

/-- The rows of a chain made from a list are those of the list, whatever their order. -/
theorem ofRows_spec {rows : List Nat} (h : ofRows n rows = .ok c) :
    c.rows = n ∧ ∀ r, r ∈ c.visited ↔ r ∈ rows := by
  obtain ⟨_, -, h⟩ := Outcome.bind_eq_ok.1 h
  obtain ⟨mask, hmask, h⟩ := Outcome.bind_eq_ok.1 h
  obtain ⟨hbound, rfl⟩ := markRows_eq_ok hmask
  constructor
  · rw [(ofMask_eq_ok h).2, rows_build, size_foldl_setTrue, Array.size_replicate]
  · intro r
    have hnone : (Array.replicate n false).getD r false = false := by
      simp [Array.getD]
    rw [mem_visited_ofMask h, getD_foldl_setTrue, hnone, Bool.or_false, decide_eq_true_iff]
    exact ⟨And.left, fun hr => ⟨hr, hbound r hr⟩⟩

theorem Made.built (h : Made n live c) : c.Built := by
  induction h with
  | full h => exact .full h
  | empty h => exact .empty h
  | ofMask h => exact .ofMask h
  | ofRows h => exact .ofRows h
  | filter _ keep ih => exact ih.filter keep
  | splitTrue _ h ih => exact ih.splitTrue h
  | splitFalse _ h ih => exact ih.splitFalse h

/-- What has been made visits the set that was reckoned beside it. -/
theorem Made.visits (h : Made n live c) : c.rows = n ∧ ∀ r, r ∈ c.visited ↔ r ∈ live := by
  induction h with
  | full h =>
    obtain ⟨hn, rfl⟩ := full_eq_ok h
    refine ⟨rows_build .., fun r => ?_⟩
    rw [visited_build (.range hn), List.mem_range, Finset.mem_range]
  | empty h =>
    obtain ⟨_, hn, h⟩ := Outcome.bind_eq_ok.1 h
    cases h
    refine ⟨rows_build .., fun r => ?_⟩
    rw [visited_build (.nil (checkRows_eq_ok.1 hn))]
    simp
  | @ofMask mask c h =>
    refine ⟨by rw [(ofMask_eq_ok h).2, rows_build], fun r => ?_⟩
    rw [mem_visited_ofMask h, Finset.mem_filter, Finset.mem_range, ← mem_liveRows]
    exact ⟨fun hr => ⟨(ascending_liveRows (ofMask_eq_ok h).1).bound r hr, hr⟩, And.right⟩
  | ofRows h =>
    refine ⟨(ofRows_spec h).1, fun r => ?_⟩
    rw [(ofRows_spec h).2 r, List.mem_toFinset]
  | filter hc keep ih =>
    refine ⟨(rows_filter ..).trans ih.1, fun r => ?_⟩
    rw [visited_filter hc.built.canonical.limit, List.mem_filter, Finset.mem_filter, ih.2 r]
  | splitTrue hc h ih =>
    rw [(split_eq_ok h).2.1]
    refine ⟨(rows_filter ..).trans ih.1, fun r => ?_⟩
    rw [visited_filter hc.built.canonical.limit, List.mem_filter, Finset.mem_filter, ih.2 r]
  | splitFalse hc h ih =>
    rw [(split_eq_ok h).2.2]
    refine ⟨(rows_filter ..).trans ih.1, fun r => ?_⟩
    rw [visited_filter hc.built.canonical.limit, List.mem_filter, Finset.mem_filter, ih.2 r,
      Bool.not_eq_true']

theorem Made.encodes (h : Made n live c) : Encodes n live c := by
  obtain ⟨rfl, hlive⟩ := h.visits
  exact h.built.canonical.encodes hlive

/-- Two chains that encode sets are equal if and only if they have as many rows and the same set. -/
theorem Encodes.eq_iff {n' : Nat} {live' : Finset Nat} {c' : LiveChain} (h : Encodes n live c)
    (h' : Encodes n' live' c') : c = c' ↔ n = n' ∧ live = live' := by
  constructor
  · rintro rfl
    refine ⟨h.rows_eq.symm.trans h'.rows_eq, Finset.ext fun r => ?_⟩
    rw [← h.mem_visited, h'.mem_visited]
  · rintro ⟨rfl, rfl⟩
    have hmask : c.toMask = c'.toMask := by
      refine Array.ext (h.size_toMask.trans h'.size_toMask.symm) fun r hr hr' => ?_
      have hiff := (h.getD_toMask r).trans (h'.getD_toMask r).symm
      rw [Array.getD_eq_getD_getElem?, Array.getD_eq_getD_getElem?, Array.getElem?_eq_getElem hr,
        Array.getElem?_eq_getElem hr'] at hiff
      exact Bool.eq_iff_iff.2 hiff
    have hofMask := h.ofMask_toMask
    rw [hmask, h'.ofMask_toMask] at hofMask
    exact (Except.ok.inj hofMask).symm

/-- Narrowing any chain within the size limit gives one that encodes what was kept. -/
theorem encodes_filter (h : c.rows ≤ maxBatchRows) (hlive : ∀ r, r ∈ c.visited ↔ r ∈ live)
    (keep : Nat → Bool) :
    Encodes c.rows (live.filter fun r => keep r = true) (c.filter keep) := by
  have hkept (r : Nat) : r ∈ (c.filter keep).visited ↔ r ∈ live.filter fun r => keep r = true := by
    rw [visited_filter h, List.mem_filter, Finset.mem_filter, hlive]
  have hencodes := (canonical_filter h keep).encodes hkept
  rwa [rows_filter] at hencodes

/-- A split on conditions for all live rows succeeds, and its parts encode the rows on either
side. -/
theorem exists_split (h : c.rows ≤ maxBatchRows) (hlive : ∀ r, r ∈ c.visited ↔ r ∈ live)
    {cond : Array Bool} (hcond : ∀ r ∈ live, r < cond.size) :
    ∃ yes no, c.split cond = .ok (yes, no) ∧
      Encodes c.rows (live.filter fun r => cond.getD r false = true) yes ∧
      Encodes c.rows (live.filter fun r => cond.getD r false = false) no := by
  refine ⟨c.filter (cond.getD · false), c.filter fun row => !cond.getD row false, ?_,
    encodes_filter h hlive _, ?_⟩
  · rw [split, if_pos]
    simpa using fun r hr => hcond r ((hlive r).1 hr)
  · have hencodes := encodes_filter h hlive fun row => !cond.getD row false
    simp only [Bool.not_eq_true'] at hencodes
    exact hencodes

end Made

/-- A chain that was made without foreign bytes encodes the set of its live rows, and so do its
filters and the two parts of a split, which divide the set. Chains made so are equal if and only if
they have as many rows and the same live ones. Foreign bytes of any kind make a chain that an
iterator can go through, and a filter of it encodes what it keeps. -/
theorem encodes_of_made :
    (∀ n live c, Made n live c → Encodes n live c ∧
      (∀ keep, Encodes n (live.filter fun r => keep r = true) (c.filter keep)) ∧
      (∀ cond : Array Bool, (∀ r ∈ live, r < cond.size) →
        ∃ yes no trues falses, c.split cond = .ok (yes, no) ∧ Encodes n trues yes ∧
          Encodes n falses no ∧ Disjoint trues falses ∧ trues ∪ falses = live ∧
          ∀ r ∈ live, r ∈ trues ↔ cond.getD r false = true) ∧
      ∀ n' live' c', Made n' live' c' → (c = c' ↔ n = n' ∧ live = live')) ∧
    ∀ links start, links.size ≤ maxBatchRows → ∃ c, ofLinks links start = .ok c ∧
      c.links = links ∧ c.start = start ∧ Yields links start c.visited ∧
      c.visited.length ≤ links.size ∧ c.visited.Pairwise (· < ·) ∧
      (∀ r ∈ c.visited, r < c.rows) ∧ c.count = c.visited.length ∧
      ∀ keep, Encodes c.rows (c.visited.toFinset.filter fun r => keep r = true)
        (c.filter keep) := by
  constructor
  · intro n live c h
    obtain ⟨rfl, hlive⟩ := h.visits
    have hlimit := h.built.canonical.limit
    refine ⟨h.encodes, encodes_filter hlimit hlive, fun cond hcond => ?_,
      fun n' live' c' h' => h.encodes.eq_iff h'.encodes⟩
    obtain ⟨yes, no, hsplit, hyes, hno⟩ := exists_split hlimit hlive hcond
    refine ⟨yes, no, _, _, hsplit, hyes, hno, ?_, ?_, fun r hr => ?_⟩
    · refine Finset.disjoint_filter.2 fun r _ htrue hfalse => ?_
      rw [htrue] at hfalse
      cases hfalse
    · ext r
      rw [Finset.mem_union, Finset.mem_filter, Finset.mem_filter, ← and_or_left]
      exact and_iff_left (Bool.eq_false_or_eq_true _)
    · rw [Finset.mem_filter]
      exact and_iff_right hr
  · intro links start h
    let c : LiveChain := ⟨links, start, (LiveChain.mk links start 0).visited.length⟩
    have hlive (r : Nat) : r ∈ c.visited ↔ r ∈ c.visited.toFinset := List.mem_toFinset.symm
    exact ⟨c, ofLinks_eq_ok h start, rfl, rfl, c.yields_visited, c.length_visited_le,
      c.visited_pairwise, fun r => lt_rows_of_mem_visited, rfl, encodes_filter h hlive⟩

/-- The rows 0 and 255 are as far from each other as rows can be. -/
theorem encodes_of_made_far :
    ∃ c, Made 256 {0, 255} c ∧ Encodes 256 {0, 255} c ∧ c.links[0]? = some 255 ∧
      Encodes 256 (Finset.filter (fun r => decide (0 < r) = true) {0, 255})
        (c.filter fun r => decide (0 < r)) ∧
      ∃ d, ofLinks #[2, 0, 3] (some 0) = .ok d ∧ d.visited = [0, 2] ∧ d.count = 2 := by
  have hok : (ofRows 256 [255, 0, 255]).isOk = true := by decide +kernel
  obtain ⟨c, hrows⟩ := Outcome.exists_eq_ok hok
  have hmade : Made 256 {0, 255} c := .ofRows hrows
  obtain ⟨hencodes, hfilter, -⟩ := encodes_of_made.1 256 {0, 255} _ hmade
  obtain ⟨byte, hbyte, hdistance⟩ :=
    hencodes.distance 0 255 ⟨by simp, by simp, by omega, by simp⟩
  obtain rfl : byte = 255 := UInt8.toNat_inj.1 hdistance
  obtain ⟨d, hd, -, -, -, -, -, -, hcount, -⟩ := encodes_of_made.2 #[2, 0, 3] (some 0) (by decide)
  have hvisited : d.visited = [0, 2] := by
    rw [← Except.ok.inj hd]
    decide +kernel
  refine ⟨_, hmade, hencodes, hbyte, hfilter _, d, hd, hvisited, ?_⟩
  rw [hcount, hvisited]
  rfl

end BatchShader.LiveChain
