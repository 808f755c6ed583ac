import BatchShader.Builtin.Registry

/-
  Comparison of the two slots of an overload.

  Sample arguments are laid out over a batch of 45 rows. The overload runs over all rows and over
  two rows of every three, under each policy for runs, and each live row of the result is compared
  with the value that the constant slot gives for the arguments of that row.
-/

namespace BatchShader.Builtin

/-! ## Samples -/

def sampleFloats : Array Binary32 :=
  #[0x00000000, 0x80000000, 0x3f800000, 0xbf800000, 0x3f000000, 0xc0200000, 0x40400000,
    0x41200000, 0xbe800000, 0x42c80000, 0x3a83126f, 0x7fc00000, 0x7f800000, 0xff800000,
    0x3f400000, 0x40000000, 0xc0e00000].map Binary32.mk

def sampleInts : Array Int32 := #[0, 1, -1, 2, -3, 7, 100, Int32.maxValue, Int32.minValue]

def sampleBools : Array Bool := #[false, true]

/-- The sample components of a kind. -/
def samples : (k : Kind) → Array k.Elem
  | .float => sampleFloats
  | .int => sampleInts
  | .bool => sampleBools

/-- Rows of a check, no multiple of eight. -/
def rowsPerCheck : Nat := 45

/-- The sample component of an argument at a row. -/
def sampleElem (k : Kind) (row param component : Nat) : k.Elem :=
  (samples k).getD ((row * (2 * param + 1) + component * 5 + param * 3) % (samples k).size) k.zero

/-- The sample argument of type `t` at a row, for the parameter number `param`. -/
def sampleValue? (t : ShaderType) (row param : Nat) : Option Value :=
  t.kind?.bind fun k =>
    Value.new? t ⟨k, (List.range t.components).map (sampleElem k row param)⟩

/-- The sample arguments of a signature at a row. -/
def sampleArgs (s : Signature) (row : Nat) : Outcome (List Value) :=
  s.params.zipIdx.mapM fun (t, param) =>
    match sampleValue? t row param with
    | some v => .ok v
    | none => Outcome.mismatch (.noValue t)

/-! ## Reports -/

/-- A row at which the two slots disagree. -/
structure Disagreement where
  signature : Signature
  paths : VectorPaths
  row : Nat
  runtime : Option Value
  constant : Value

structure CheckReport where
  /-- How many overloads were compared. -/
  checked : Nat
  /-- How many rows were compared. -/
  comparisons : Nat
  disagreements : List Disagreement

namespace CheckReport

def empty : CheckReport := ⟨0, 0, []⟩

def isClean (r : CheckReport) : Bool := r.disagreements.isEmpty

/-- One more comparison of a row. -/
def compare (r : CheckReport) (s : Signature) (paths : VectorPaths) (row : Nat)
    (runtime : Option Value) (constant : Value) : CheckReport :=
  let agrees := match runtime with
    | some v => v.same constant
    | none => false
  { r with
    comparisons := r.comparisons + 1
    disagreements :=
      if agrees then r.disagreements
      else r.disagreements ++ [⟨s, paths, row, runtime, constant⟩] }

end CheckReport

/-! ## Checks -/

/-- The value of the constant slot, which has to have one. -/
def constantValue (b : Builtin) (args : List Value) : Outcome Value := do
  match ← b.evaluate args with
  | some v => .ok v
  | none => Outcome.mismatch .noConstantForm

/-- The result register of one run of the runtime slot. -/
def runOnce (b : Builtin) (inv : Invocation) (args : List Register) : Outcome Register :=
  match (b.execute inv args).run (Register.zeroed b.signature.result inv.chain.rows) with
  | .ok _ out => .ok out
  | .error e _ => .error e

/-- Compares the two slots of one overload. -/
def checkOverload (b : Builtin) (report : CheckReport) : Outcome CheckReport := do
  let s := b.signature
  let rows ← (List.range rowsPerCheck).mapM (sampleArgs s)
  let expected ← rows.mapM (constantValue b)
  let registers ← s.params.zipIdx.mapM fun (t, param) => do
    let column ← rows.mapM fun args => Outcome.require args[param]?
    Register.ofValues t column
  let chains := [← LiveChain.full rowsPerCheck,
    ← LiveChain.ofMask ((Array.range rowsPerCheck).map (· % 3 != 1))]
  let report ← chains.foldlM
    (fun report chain => VectorPaths.all.foldlM
      (fun report paths => do
        let out ← runOnce b ⟨⟨chain, paths⟩, none⟩ registers
        chain.visited.foldlM
          (fun report row => do
            let v ← Outcome.require expected[row]?
            return report.compare s paths row (out.rowValue? row) v)
          report)
      report)
    report
  return { report with checked := report.checked + 1 }

/-- Compares the two slots of every overload that has both. -/
def selfCheck (r : Registry Implementation) : Outcome CheckReport :=
  (r.toList.filter hasBothSlots).foldlM (fun report b => checkOverload b report) .empty

end BatchShader.Builtin
