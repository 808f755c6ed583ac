import BatchShader.Failure

/-
  The live rows of a batch, linked forwards.

  Each row has one byte. The byte of a live row is the distance to the next live row, and `0` ends
  the chain; a batch has at most 256 rows, so a distance fits. `visited` follows the links, and
  `build` makes the links for an ascending list of rows. Chains may also be adopted from foreign
  bytes; then only the size is checked, and a chain may point past the end.
-/

namespace BatchShader

/-- The largest batch whose live rows are always within one byte of each other. -/
def maxBatchRows : Nat := 256

/-- Refuses batches that are too large for a chain. -/
def checkRows (rows : Nat) : Outcome Unit :=
  if rows ≤ maxBatchRows then .ok () else Outcome.fail (.batchTooLarge rows maxBatchRows)

structure LiveChain where
  links : Array UInt8
  start : Option Nat
  /-- How many rows the chain visits. -/
  count : Nat
deriving DecidableEq, Repr

namespace LiveChain

/-- The size of the batch, live rows or not. -/
def rows (c : LiveChain) : Nat := c.links.size

/-- Whether the chain has no start. -/
def isEmpty (c : LiveChain) : Bool := c.start.isNone

/-! ## Following the links -/

/-- The rows from `row` on. Each step goes forwards, so the walk ends. -/
def follow (links : Array UInt8) (row : Nat) : List Nat :=
  if h : row < links.size then
    if 0 < links[row].toNat then row :: follow links (row + links[row].toNat) else [row]
  else []
termination_by links.size - row

/-- The live rows in ascending order. -/
def visited (c : LiveChain) : List Nat :=
  match c.start with
  | some row => follow c.links row
  | none => []

/-- Which rows are live. -/
def toMask (c : LiveChain) : Array Bool :=
  c.visited.foldl (fun mask row => mask.setIfInBounds row true) (Array.replicate c.rows false)

/-! ## Building chains -/

/-- Links each row of an ascending list to the next one. -/
def linkUp : List Nat → Array UInt8 → Array UInt8
  | row :: next :: rest, links =>
    linkUp (next :: rest) (links.setIfInBounds row (UInt8.ofNat (next - row)))
  | _, links => links

/-- The chain through an ascending list of rows. -/
def build (rows : Nat) (live : List Nat) : LiveChain :=
  ⟨linkUp live (Array.replicate rows 0), live.head?, live.length⟩

@[simp] theorem size_linkUp (live : List Nat) (links : Array UInt8) :
    (linkUp live links).size = links.size := by
  induction live generalizing links with
  | nil => rfl
  | cons row rest ih =>
    cases rest with
    | nil => rfl
    | cons next rest => rw [linkUp, ih, Array.size_setIfInBounds]

@[simp] theorem rows_build (rows : Nat) (live : List Nat) : (build rows live).rows = rows := by
  simp [build, LiveChain.rows]

/-- The rows at which a mask is set. -/
def liveRows (mask : Array Bool) : List Nat :=
  (List.range mask.size).filter fun row => mask.getD row false

/-- The chain with all rows live. -/
def full (rows : Nat) : Outcome LiveChain := do
  checkRows rows
  return build rows (List.range rows)

/-- The chain of `rows` rows with none live. -/
def empty (rows : Nat) : Outcome LiveChain := do
  checkRows rows
  return build rows []

/-- The chain through the rows at which the mask is set. -/
def ofMask (mask : Array Bool) : Outcome LiveChain := do
  checkRows mask.size
  return build mask.size (liveRows mask)

/-- The mask with the listed rows set, which may come in any order and more than once. -/
def markRows (rows : Nat) : List Nat → Array Bool → Outcome (Array Bool)
  | [], mask => .ok mask
  | row :: rest, mask =>
    if row < mask.size then markRows rows rest (mask.setIfInBounds row true)
    else Outcome.fail (.rowOutOfRange row rows)

/-- The chain through the listed rows. -/
def ofRows (rows : Nat) (live : List Nat) : Outcome LiveChain := do
  checkRows rows
  let mask ← markRows rows live (Array.replicate rows false)
  ofMask mask

/-- The chain given by foreign bytes, of which only the number is checked. -/
def ofLinks (links : Array UInt8) (start : Option Nat) : Outcome LiveChain := do
  checkRows links.size
  let chain : LiveChain := ⟨links, start, 0⟩
  return { chain with count := chain.visited.length }

/-! ## Narrowing -/

/-- The chain of the live rows that are kept. -/
def filter (c : LiveChain) (keep : Nat → Bool) : LiveChain :=
  build c.rows (c.visited.filter keep)

@[simp] theorem rows_filter (c : LiveChain) (keep : Nat → Bool) : (c.filter keep).rows = c.rows :=
  rows_build ..

/-- The same batch with no row live. -/
def cleared (c : LiveChain) : LiveChain := build c.rows []

/-- The live rows at which a condition is true, and the ones at which it is false. Every live row
needs a condition. -/
def split (c : LiveChain) (cond : Array Bool) : Outcome (LiveChain × LiveChain) :=
  if c.visited.all (· < cond.size) then
    .ok (c.filter (cond.getD · false), c.filter fun row => !cond.getD row false)
  else .error .outOfRange

end LiveChain

end BatchShader
