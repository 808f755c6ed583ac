import BatchShader.LiveChain
import BatchShader.VectorPaths

/-
  Settings of an engine.
-/

namespace BatchShader

structure Config where
  /-- The most rows a batch may have. -/
  batchRows : Nat
  paths : VectorPaths
  /-- Whether constant parts of a shader are folded before it runs. -/
  foldConstants : Bool
deriving DecidableEq, Repr

namespace Config

/-- The largest batches, the widest runs, folding on. -/
def standard : Config := ⟨maxBatchRows, .wide8, true⟩

instance : Inhabited Config := ⟨standard⟩

/-- The limit has to be positive and no larger than a chain allows. -/
def validate (c : Config) : Outcome Unit :=
  if c.batchRows = 0 ∨ maxBatchRows < c.batchRows then
    Outcome.fail (.config (.batchRows maxBatchRows c.batchRows))
  else .ok ()

end Config

end BatchShader
