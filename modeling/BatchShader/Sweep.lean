import BatchShader.LiveChain
import BatchShader.VectorPaths

/-
  Sweeps over the live rows of a batch.

  `runs` cuts the live rows into runs: eight or four adjacent live rows at an aligned start where
  the policy allows it, else single rows. A sweep calls its kernel once for each run, and the
  kernel replaces the result at every row of the run. `map1` to `map4` compute a result from the
  operands of its row; `update1` to `update3` also read the old result, so that a row visited twice
  would show.
-/

namespace BatchShader

/-- Adjacent rows covered by one kernel call. -/
structure Run where
  start : Nat
  width : Nat
deriving DecidableEq, Repr

namespace Run

/-- The rows of a run in ascending order. -/
def toList (r : Run) : List Nat := List.range' r.start r.width

end Run

/-! ## Cutting a chain into runs -/

namespace LiveChain

/-- The links of `width` adjacent rows as one word, the link of the first row in the lowest byte. -/
def linkWord (links : Array UInt8) (row width : Nat) : Nat :=
  (List.range width).foldr (fun i word => (links.getD (row + i) 0).toNat + 256 * word) 0

/-- A run of several rows: how many they are, the bits of their word that hold the links of all
rows but the last, and these links when each of the rows is linked to its neighbour. -/
structure WideRun where
  width : Nat
  mask : Nat
  dense : Nat
deriving DecidableEq, Repr

namespace WideRun

def eight : WideRun := ⟨8, 0x00ffffffffffffff, 0x0001010101010101⟩

def four : WideRun := ⟨4, 0x00ffffff, 0x00010101⟩

/-- Whether a run starts at a row: the row is aligned, the batch has all rows of the run, and they
are linked to each other. -/
def startsAt (w : WideRun) (links : Array UInt8) (row : Nat) : Bool :=
  row % w.width == 0 && row + w.width ≤ links.size &&
    linkWord links row w.width &&& w.mask == w.dense

/-- The link of the last row: the highest byte of the word. -/
def lastLink (w : WideRun) (links : Array UInt8) (row : Nat) : Nat :=
  linkWord links row w.width >>> (8 * (w.width - 1))

end WideRun

/-- The run that starts at a live row, and the link of its last row. -/
def firstRun (links : Array UInt8) (paths : VectorPaths) (row : Nat) : Run × Nat :=
  if paths.allowsEight && WideRun.eight.startsAt links row then
    (⟨row, 8⟩, WideRun.eight.lastLink links row)
  else if paths.allowsFour && WideRun.four.startsAt links row then
    (⟨row, 4⟩, WideRun.four.lastLink links row)
  else (⟨row, 1⟩, (links.getD row 0).toNat)

/-- The runs from a live row on. The link of a run's last row leads on; a link past the end of the
batch is out of range. -/
def runsFrom (links : Array UInt8) (paths : VectorPaths) (row : Nat) : Outcome (List Run) :=
  if h : row < links.size then
    let run := (firstRun links paths row).1
    let delta := (firstRun links paths row).2
    if hd : 0 < delta then
      (runsFrom links paths (row + (run.width - 1) + delta)).map (run :: ·)
    else .ok [run]
  else .error .outOfRange
termination_by links.size - row

/-- The runs of a chain in ascending order. -/
def runs (c : LiveChain) (paths : VectorPaths) : Outcome (List Run) :=
  match c.start with
  | some row => runsFrom c.links paths row
  | none => .ok []

end LiveChain

/-! ## Kernels -/

/-- The element of a column at a row. -/
def rowOf {α : Type} (column : Array α) (row : Nat) : Outcome α :=
  Outcome.require column[row]?

/-- What a kernel does at one row: the new result from the old one. -/
abbrev RowStep (β : Type) := Nat → β → Outcome β

namespace RowStep

variable {β : Type}

/-- Replaces the result at one row. -/
def atRow (step : RowStep β) (out : Array β) (row : Nat) : Outcome (Array β) :=
  if h : row < out.size then do
    let new ← step row out[row]
    return out.set row new
  else .error .outOfRange

/-- Replaces the result at each of some rows in turn. -/
def atRows (step : RowStep β) (rows : List Nat) (out : Array β) : Outcome (Array β) :=
  rows.foldlM step.atRow out

end RowStep

/-! ## Sweeps -/

/-- Which rows to sweep over, and in how wide runs. -/
structure Sweep where
  chain : LiveChain
  paths : VectorPaths
deriving DecidableEq, Repr

namespace Sweep

variable {α β γ δ ε : Type}

/-- One kernel call for each run of the chain. -/
def apply (s : Sweep) (step : RowStep β) (out : Array β) : Outcome (Array β) := do
  let runs ← s.chain.runs s.paths
  runs.foldlM (fun out run => step.atRows run.toList out) out

/-- `out[r] = f r` at every live row `r`. -/
def map (s : Sweep) (f : Nat → Outcome β) (out : Array β) : Outcome (Array β) :=
  s.apply (fun row _ => f row) out

/-- `out[r] = op a[r]` at every live row `r`. -/
def map1 (s : Sweep) (a : Array α) (out : Array β) (op : α → β) : Outcome (Array β) :=
  s.map (fun r => return op (← rowOf a r)) out

/-- `out[r] = op a[r] b[r]` at every live row `r`. -/
def map2 (s : Sweep) (a : Array α) (b : Array γ) (out : Array β) (op : α → γ → β) :
    Outcome (Array β) :=
  s.map (fun r => return op (← rowOf a r) (← rowOf b r)) out

/-- `out[r] = op a[r] b[r] c[r]` at every live row `r`. -/
def map3 (s : Sweep) (a : Array α) (b : Array γ) (c : Array δ) (out : Array β)
    (op : α → γ → δ → β) : Outcome (Array β) :=
  s.map (fun r => return op (← rowOf a r) (← rowOf b r) (← rowOf c r)) out

/-- `out[r] = op a[r] b[r] c[r] d[r]` at every live row `r`. -/
def map4 (s : Sweep) (a : Array α) (b : Array γ) (c : Array δ) (d : Array ε) (out : Array β)
    (op : α → γ → δ → ε → β) : Outcome (Array β) :=
  s.map (fun r => return op (← rowOf a r) (← rowOf b r) (← rowOf c r) (← rowOf d r)) out

/-- `acc[r] = op acc[r] a[r]` at every live row `r`. -/
def update1 (s : Sweep) (acc : Array β) (a : Array α) (op : β → α → β) : Outcome (Array β) :=
  s.apply (fun r old => return op old (← rowOf a r)) acc

/-- `acc[r] = op acc[r] a[r] b[r]` at every live row `r`. -/
def update2 (s : Sweep) (acc : Array β) (a : Array α) (b : Array γ) (op : β → α → γ → β) :
    Outcome (Array β) :=
  s.apply (fun r old => return op old (← rowOf a r) (← rowOf b r)) acc

/-- `acc[r] = op acc[r] a[r] b[r] c[r]` at every live row `r`. -/
def update3 (s : Sweep) (acc : Array β) (a : Array α) (b : Array γ) (c : Array δ)
    (op : β → α → γ → δ → β) : Outcome (Array β) :=
  s.apply (fun r old => return op old (← rowOf a r) (← rowOf b r) (← rowOf c r)) acc

end Sweep

end BatchShader
