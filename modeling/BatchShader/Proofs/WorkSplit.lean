import BatchShader.Batch
import Mathlib.Algebra.Group.Nat.Defs
import Mathlib.Logic.ExistsUnique

/-
  Splitting a workload into batches.

  `Splits total limit ranges` says what a split has to be: non-empty ranges one after the other, all
  but the last of `limit` indices, in which each index below `total` occurs once. The ranges of a
  workload are multiples of the step, in words. Only the end of the last range can leave the range
  of a word, since every other one is the start of a range (`lt_pieces_iff`).

  `ranges_splits_iff`: the split is right if and only if the last end fits a word. If it does not,
  then the last range is empty: it ends before it begins, and the indices from its start on are in
  no range. `ranges_lose_upperHalf` is such a workload.
-/

namespace BatchShader.Batch

/-! ## Splits -/

/-- Ranges, each as its first index and the index past its last, that split `total` indices into
batches of at most `limit`. -/
structure Splits (total limit : Nat) (ranges : List (Nat × Nat)) : Prop where
  nonempty : ∀ r ∈ ranges, r.1 < r.2
  length_le : ∀ r ∈ ranges, r.2 ≤ r.1 + limit
  start : ∀ r ∈ ranges.head?, r.1 = 0
  stop : ∀ r ∈ ranges.getLast?, r.2 = total
  /-- A range that is followed by another one ends where that one begins, and is full. -/
  adjacent : ∀ (k : Nat) (r s : Nat × Nat), ranges[k]? = some r → ranges[k + 1]? = some s →
    r.2 = s.1 ∧ r.2 = r.1 + limit
  /-- Each index lies in exactly one range. -/
  covered : ∀ i < total,
    ∃! k : Nat, ∃ r : Nat × Nat, ranges[k]? = some r ∧ r.1 ≤ i ∧ i < r.2

/-- How many ranges of `limit` indices it takes for `total` indices. -/
def pieces (total limit : Nat) : Nat := (total + limit - 1) / limit

/-- The multiples of `limit` as starts of ranges, the last of which is cut off at `total`. -/
def evenRanges (total limit n : Nat) : List (Nat × Nat) :=
  (List.range n).map fun i => (i * limit, min ((i + 1) * limit) total)

section Even

variable {total limit n i k : Nat} {r : Nat × Nat}

/-- Ranges start below `total`. -/
theorem lt_pieces_iff (hlimit : 0 < limit) : i < pieces total limit ↔ i * limit < total := by
  rw [pieces, ← Nat.succ_le_iff, Nat.le_div_iff_mul_le hlimit, Nat.succ_mul]
  omega

theorem le_pieces_mul (hlimit : 0 < limit) : total ≤ pieces total limit * limit :=
  Nat.not_lt.1 fun h => Nat.lt_irrefl _ ((lt_pieces_iff hlimit).2 h)

theorem getElem?_evenRanges :
    (evenRanges total limit n)[k]? = some r ↔
      k < n ∧ r = (k * limit, min ((k + 1) * limit) total) := by
  rw [evenRanges, List.getElem?_map, Option.map_eq_some_iff]
  constructor
  · rintro ⟨j, hj, rfl⟩
    obtain ⟨hk, hj⟩ := List.getElem?_eq_some_iff.1 hj
    rw [List.getElem_range] at hj
    rw [List.length_range] at hk
    exact ⟨hk, by rw [hj]⟩
  · rintro ⟨hk, rfl⟩
    exact ⟨k, List.getElem?_range hk, rfl⟩

theorem mem_evenRanges :
    r ∈ evenRanges total limit n ↔ ∃ k < n, r = (k * limit, min ((k + 1) * limit) total) := by
  simp only [evenRanges, List.mem_map, List.mem_range, eq_comm (b := r)]

/-- The multiples of the limit split the indices, if there are enough of them and none too many. -/
theorem splits_evenRanges (hlimit : 0 < limit) (hlow : ∀ i < n, i * limit < total)
    (hhigh : total ≤ n * limit) : Splits total limit (evenRanges total limit n) where
  nonempty r hr := by
    obtain ⟨k, hk, rfl⟩ := mem_evenRanges.1 hr
    have := hlow k hk
    rw [Nat.succ_mul]
    omega
  length_le r hr := by
    obtain ⟨k, hk, rfl⟩ := mem_evenRanges.1 hr
    rw [Nat.succ_mul]
    exact Nat.min_le_left ..
  start r hr := by
    rw [List.head?_eq_getElem?, Option.mem_def] at hr
    obtain ⟨-, rfl⟩ := getElem?_evenRanges.1 hr
    exact Nat.zero_mul limit
  stop r hr := by
    rw [List.getLast?_eq_getElem?, Option.mem_def] at hr
    obtain ⟨hk, rfl⟩ := getElem?_evenRanges.1 hr
    rw [evenRanges, List.length_map, List.length_range] at hk ⊢
    rw [Nat.sub_add_cancel (by omega)]
    exact Nat.min_eq_right hhigh
  adjacent k r s hr hs := by
    obtain ⟨-, rfl⟩ := getElem?_evenRanges.1 hr
    obtain ⟨hk, rfl⟩ := getElem?_evenRanges.1 hs
    have hle := Nat.le_of_lt (hlow (k + 1) hk)
    exact ⟨Nat.min_eq_left hle, (Nat.min_eq_left hle).trans (Nat.succ_mul k limit)⟩
  covered i hi := by
    -- the index lies in the range of its quotient by the limit
    have hquotient : ∀ k, k * limit ≤ i ∧ i < (k + 1) * limit ↔ k = i / limit := fun k => by
      rw [eq_comm, Nat.div_eq_iff hlimit, Nat.succ_mul]
      omega
    have hpos := (hquotient (i / limit)).2 rfl
    refine ⟨i / limit,
      ⟨_, getElem?_evenRanges.2 ⟨?_, rfl⟩, hpos.1, Nat.lt_min.2 ⟨hpos.2, hi⟩⟩, ?_⟩
    · exact (Nat.div_lt_iff_lt_mul hlimit).2 (Nat.lt_of_lt_of_le hi hhigh)
    · rintro k ⟨r, hr, hle, hlt⟩
      obtain ⟨-, rfl⟩ := getElem?_evenRanges.1 hr
      exact (hquotient k).1 ⟨hle, (Nat.lt_min.1 hlt).1⟩

end Even

/-! ## Ranges of words -/

/-- The ends of ranges of words, as numbers. -/
def bounds (ranges : List (UInt64 × UInt64)) : List (Nat × Nat) :=
  ranges.map fun r => (r.1.toNat, r.2.toNat)

/-- The range that starts `i` steps after index 0, as it is computed in words. -/
def wordRange (total step : UInt64) (i : Nat) : UInt64 × UInt64 :=
  let first := UInt64.ofNat (i * step.toNat)
  (first, if first + step < total then first + step else total)

/-- The step between starts: a limit of zero counts as one. -/
def stepOf (batchRows : UInt64) : UInt64 := if batchRows = 0 then 1 else batchRows

theorem toNat_stepOf (batchRows : UInt64) : (stepOf batchRows).toNat = max batchRows.toNat 1 := by
  unfold stepOf
  split
  · next h =>
    rw [h]
    rfl
  · next h =>
    have hne : batchRows.toNat ≠ 0 := fun h0 => h (UInt64.toNat_inj.1 h0)
    omega

theorem ranges_eq (total batchRows : UInt64) :
    ranges total batchRows =
      (List.range (pieces total.toNat (stepOf batchRows).toNat)).map
        (wordRange total (stepOf batchRows)) := rfl

section Words

variable {total step : UInt64} {i : Nat}

theorem toNat_start (h : i * step.toNat < total.toNat) :
    (UInt64.ofNat (i * step.toNat)).toNat = i * step.toNat :=
  UInt64.toNat_ofNat_of_lt' (Nat.lt_trans h total.toNat_lt)

/-- If the end of the step fits a word, the range ends there or where the workload does. -/
theorem toNat_stop (h : i * step.toNat < total.toNat)
    (hfits : (i + 1) * step.toNat < 2 ^ 64) :
    (wordRange total step i).2.toNat = min ((i + 1) * step.toNat) total.toNat := by
  have hsum : (UInt64.ofNat (i * step.toNat) + step).toNat = (i + 1) * step.toNat := by
    rw [UInt64.toNat_add, toNat_start h, ← Nat.succ_mul, Nat.mod_eq_of_lt hfits]
  dsimp only [wordRange]
  split
  · next hlt =>
    rw [UInt64.lt_iff_toNat_lt, hsum] at hlt
    rw [hsum, Nat.min_eq_left (Nat.le_of_lt hlt)]
  · next hlt =>
    rw [UInt64.lt_iff_toNat_lt, hsum, Nat.not_lt] at hlt
    rw [Nat.min_eq_right hlt]

/-- If it does not fit, the range ends before it begins. -/
theorem stop_lt_start (h : i * step.toNat < total.toNat)
    (hwraps : 2 ^ 64 ≤ (i + 1) * step.toNat) :
    (wordRange total step i).2 < (wordRange total step i).1 := by
  have htotal := total.toNat_lt
  have hstep := step.toNat_lt
  rw [Nat.succ_mul] at hwraps
  have hsum : (UInt64.ofNat (i * step.toNat) + step).toNat =
      i * step.toNat + step.toNat - 2 ^ 64 := by
    rw [UInt64.toNat_add, toNat_start h, Nat.mod_eq_sub_mod hwraps, Nat.mod_eq_of_lt (by omega)]
  have hlt : UInt64.ofNat (i * step.toNat) + step < total := by
    rw [UInt64.lt_iff_toNat_lt, hsum]
    omega
  dsimp only [wordRange]
  rw [if_pos hlt, UInt64.lt_iff_toNat_lt, hsum, toNat_start h]
  omega

/-- As long as their ends fit a word, the ranges are those of the multiples of the step. -/
theorem bounds_wordRanges {n : Nat} (hlow : ∀ i < n, i * step.toNat < total.toNat)
    (hfits : n * step.toNat < 2 ^ 64) :
    bounds ((List.range n).map (wordRange total step)) =
      evenRanges total.toNat step.toNat n := by
  rw [bounds, evenRanges, List.map_map]
  refine List.map_congr_left fun i hi => ?_
  rw [List.mem_range] at hi
  have hle : (i + 1) * step.toNat ≤ n * step.toNat := Nat.mul_le_mul_right _ hi
  exact Prod.ext (toNat_start (hlow i hi))
    (toNat_stop (hlow i hi) (Nat.lt_of_le_of_lt hle hfits))

/-- No sum overflows if and only if the last one does not. -/
theorem sums_fit_iff {n : Nat} (hlow : ∀ i < n, i * step.toNat < total.toNat) :
    (∀ r ∈ (List.range n).map (wordRange total step), r.1.toNat + step.toNat < 2 ^ 64) ↔
      n * step.toNat < 2 ^ 64 := by
  simp only [List.forall_mem_map, List.mem_range]
  have hsum : ∀ i < n, (wordRange total step i).1.toNat + step.toNat = (i + 1) * step.toNat :=
    fun i hi => by rw [wordRange, toNat_start (hlow i hi), Nat.succ_mul]
  constructor
  · intro h
    cases n with
    | zero => omega
    | succ n => exact hsum n (Nat.lt_succ_self n) ▸ h n (Nat.lt_succ_self n)
  · intro h i hi
    rw [hsum i hi]
    exact Nat.lt_of_le_of_lt (Nat.mul_le_mul_right _ hi) h

/-- If the end of the last step does not fit, the last range is empty, and the others are those of
the multiples of the step below its start. -/
theorem last_wraps {n : Nat} (hlow : ∀ i < n + 1, i * step.toNat < total.toNat)
    (hreach : 2 ^ 64 ≤ (n + 1) * step.toNat) :
    let ranges := (List.range (n + 1)).map (wordRange total step)
    ∃ first past, ranges.getLast? = some (first, past) ∧ past < first ∧ first < total ∧
      first.toNat = n * step.toNat ∧
      bounds ranges.dropLast = evenRanges first.toNat step.toNat n := by
  have hlast := hlow n (Nat.lt_succ_self n)
  have hfirst := toNat_start hlast
  refine ⟨_, _, ?_, stop_lt_start hlast hreach, ?_, hfirst, ?_⟩
  · rw [List.range_succ, List.map_append, List.map_singleton, List.getLast?_concat]
  · rwa [wordRange, UInt64.lt_iff_toNat_lt, hfirst]
  · have hcut : (List.map (wordRange total step) (List.range (n + 1))).dropLast =
        (List.range n).map (wordRange total step) := by
      rw [List.range_succ, List.map_append, List.map_singleton, List.dropLast_concat]
    rw [hcut, bounds_wordRanges (fun i hi => hlow i (Nat.lt_succ_of_lt hi))
      (Nat.lt_trans hlast total.toNat_lt), wordRange, hfirst]
    -- none of these ranges is cut off
    refine List.map_congr_left fun i hi => ?_
    have hle : (i + 1) * step.toNat ≤ n * step.toNat :=
      Nat.mul_le_mul_right _ (List.mem_range.1 hi)
    rw [Nat.min_eq_left hle, Nat.min_eq_left (Nat.le_of_lt (Nat.lt_of_le_of_lt hle hlast))]

end Words

/-! ## The split of a workload -/

/-- The most indices of a range: a step of 0 counts as 1. -/
def limit (batchRows : UInt64) : Nat := max batchRows.toNat 1

/-- Where the steps that cover a workload end. -/
def reach (total batchRows : UInt64) : Nat :=
  pieces total.toNat (limit batchRows) * limit batchRows

/-- The ranges of a workload split it as they should if and only if the steps that it takes end
inside a word, which is when no sum overflows. If they do not, then the last range is empty, since
it ends before it begins, and the ranges before it split the indices below its start only. -/
theorem ranges_splits_iff (total batchRows : UInt64) :
    (Splits total.toNat (limit batchRows) (bounds (ranges total batchRows)) ↔
      reach total batchRows < 2 ^ 64) ∧
    ((∀ r ∈ ranges total batchRows, r.1.toNat + limit batchRows < 2 ^ 64) ↔
      reach total batchRows < 2 ^ 64) ∧
    (2 ^ 64 ≤ reach total batchRows → ∃ first past,
      (ranges total batchRows).getLast? = some (first, past) ∧ past < first ∧ first < total ∧
      Splits first.toNat (limit batchRows) (bounds (ranges total batchRows).dropLast)) := by
  have hranges := ranges_eq total batchRows
  have hstep : (stepOf batchRows).toNat = limit batchRows := toNat_stepOf batchRows
  generalize stepOf batchRows = step at hranges hstep
  have hpos : 0 < step.toNat := hstep ▸ Nat.lt_of_lt_of_le Nat.one_pos (Nat.le_max_right ..)
  have hreach : reach total batchRows = pieces total.toNat step.toNat * step.toNat := by
    rw [hstep, reach]
  have hlow : ∀ i < pieces total.toNat step.toNat, i * step.toNat < total.toNat :=
    fun i hi => (lt_pieces_iff hpos).1 hi
  have hhigh : total.toNat ≤ pieces total.toNat step.toNat * step.toNat := le_pieces_mul hpos
  rw [hranges, hreach, ← hstep]
  generalize pieces total.toNat step.toNat = n at hlow hhigh
  have hwraps : 2 ^ 64 ≤ n * step.toNat → ∃ first past,
      ((List.range n).map (wordRange total step)).getLast? = some (first, past) ∧
        past < first ∧ first < total ∧ Splits first.toNat step.toNat
          (bounds ((List.range n).map (wordRange total step)).dropLast) := by
    intro h
    obtain ⟨m, rfl⟩ := Nat.exists_eq_succ_of_ne_zero (n := n) (by rintro rfl; omega)
    obtain ⟨first, past, hlast, hlt, htotal, hfirst, hrest⟩ := last_wraps hlow h
    refine ⟨first, past, hlast, hlt, htotal,
      hrest ▸ splits_evenRanges hpos (fun i hi => ?_) (Nat.le_of_eq hfirst)⟩
    exact hfirst ▸ Nat.mul_lt_mul_of_pos_right hi hpos
  refine ⟨⟨fun h => ?_, fun h => ?_⟩, sums_fit_iff hlow, hwraps⟩
  · refine Nat.not_le.1 fun hle => ?_
    obtain ⟨first, past, hlast, hlt, -⟩ := hwraps hle
    have hmem := List.mem_map_of_mem (f := fun r => (r.1.toNat, r.2.toNat))
      (List.mem_of_getLast? hlast)
    exact absurd (h.nonempty _ hmem) (Nat.lt_asymm (UInt64.lt_iff_toNat_lt.1 hlt))
  · rw [bounds_wordRanges hlow h]
    exact splits_evenRanges hpos hlow hhigh

/-- The second range should end at `2 ^ 64 - 1`. Its sum is `2 ^ 64`, so that it ends at 0. -/
theorem ranges_lose_upperHalf :
    ranges 0xffffffffffffffff 0x8000000000000000 =
        [(0, 0x8000000000000000), (0x8000000000000000, 0)] ∧
      ¬Splits (0xffffffffffffffff : UInt64).toNat (limit 0x8000000000000000)
        (bounds (ranges 0xffffffffffffffff 0x8000000000000000)) := by
  have hranges : ranges 0xffffffffffffffff 0x8000000000000000 =
      [(0, 0x8000000000000000), (0x8000000000000000, 0)] := by decide +kernel
  refine ⟨hranges, fun h => ?_⟩
  rw [hranges] at h
  exact absurd (h.nonempty (0x8000000000000000, 0) (by decide)) (by decide)

/-- A workload that is cut into full batches and a smaller one. -/
theorem ranges_splits_iff_600 :
    reach 600 256 < 2 ^ 64 ∧ Splits 600 256 [(0, 256), (256, 512), (512, 600)] := by
  have hfits : reach 600 256 < 2 ^ 64 := by decide +kernel
  exact ⟨hfits, (ranges_splits_iff 600 256).1.2 hfits⟩

end BatchShader.Batch
