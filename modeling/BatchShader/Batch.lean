import BatchShader.LiveChain
import BatchShader.Store
import BatchShader.Texture.Units

/-
  Batches of shader invocations.

  A batch holds its variables, the chain of the rows that still run, the rows that were discarded,
  and the bound textures. Discarding a row flags it and takes it off the chain.
-/

namespace BatchShader

structure Batch where
  store : Store
  chain : LiveChain
  discarded : Array Bool
  textures : TextureUnits

namespace Batch

/-- A batch without variables. -/
def ofChain (chain : LiveChain) : Batch :=
  ⟨Store.new chain.rows, chain, Array.replicate chain.rows false, .empty⟩

/-- A batch of `rows` invocations that all run. -/
def new (rows : Nat) : Outcome Batch := return ofChain (← LiveChain.full rows)

/-- A batch in which only the rows set in the mask run. -/
def ofMask (mask : Array Bool) : Outcome Batch := return ofChain (← LiveChain.ofMask mask)

/-- The number of invocations, running or not. -/
def rows (b : Batch) : Nat := b.chain.rows

def withTextures (b : Batch) (textures : TextureUnits) : Batch := { b with textures }

/-! ## Variables -/

/-- Binds a variable with a value for each row. -/
def setInput (b : Batch) (name : String) (r : Register) : Outcome Batch :=
  return { b with store := ← b.store.insert name r }

/-- Binds a variable with the same value on every row. -/
def setUniform (b : Batch) (name : String) (v : Value) : Outcome Batch :=
  b.setInput name (Register.splat v b.rows)

/-- The register of a variable. -/
def register (b : Batch) (name : String) : Outcome Register :=
  match b.store.get? name with
  | some r => .ok r
  | none => Outcome.fail (.unknownVariable name)

/-- The value of a variable at a row. -/
def value (b : Batch) (name : String) (row : Nat) : Outcome Value := do
  match (← b.register name).rowValue? row with
  | some v => .ok v
  | none => Outcome.fail (.rowOutOfRange row b.rows)

/-! ## Discarding -/

/-- Whether a row was discarded; rows past the end were not. -/
def isDiscarded (b : Batch) (row : Nat) : Bool := b.discarded.getD row false

/-- Flags the live rows of a chain and stops them. -/
def discard (b : Batch) (chain : LiveChain) : Batch :=
  let discarded := chain.visited.foldl (fun d row => d.setIfInBounds row true) b.discarded
  { b with
    discarded
    chain := b.chain.filter fun row => !discarded.getD row false }

/-- Discards the live rows of a chain. They and the live rows of the batch all need a flag. -/
def discardRows (b : Batch) (chain : LiveChain) : Outcome Batch :=
  if (chain.visited ++ b.chain.visited).all (· < b.discarded.size) then .ok (b.discard chain)
  else .error .outOfRange

/-! ## Splitting a workload -/

/-- The ranges that split `total` invocations into batches of at most `batchRows`, as first index
and index past the last. Indices are 64-bit words; a limit of zero counts as one. -/
def ranges (total batchRows : UInt64) : List (UInt64 × UInt64) :=
  let step := if batchRows = 0 then 1 else batchRows
  let count := (total.toNat + step.toNat - 1) / step.toNat
  (List.range count).map fun i =>
    let first := UInt64.ofNat (i * step.toNat)
    let past := first + step
    (first, if past < total then past else total)

end Batch

end BatchShader
