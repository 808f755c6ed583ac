import BatchShader.Failure
import BatchShader.Value

/-
  Registers: one value for each row of a batch, stored component by component.

  A lane holds one component of every row. A register of type `t` has `t.components` lanes of `t`'s
  kind, all of the register's length; `WellFormed` says so. `ofValues` lays values out as lanes and
  `rowValue?` reads a row back.
-/

namespace BatchShader

/-! ## Lanes -/

/-- One component for each row, with the kind of the components. -/
structure Lane where
  kind : Kind
  column : Array kind.Elem
deriving DecidableEq

namespace Lane

def rows (l : Lane) : Nat := l.column.size

def splat (s : Scalar) (rows : Nat) : Lane := ⟨s.kind, Array.replicate rows s.elem⟩

def zeroed (k : Kind) (rows : Nat) : Lane := ⟨k, Array.replicate rows k.zero⟩

/-- The components, if they are of kind `k`. -/
def as? (k : Kind) (l : Lane) : Option (Array k.Elem) :=
  if h : l.kind = k then some (h ▸ l.column) else none

theorem as?_self (l : Lane) : l.as? l.kind = some l.column := by simp [as?]

theorem as?_eq_some {k : Kind} {l : Lane} {c : Array k.Elem} : l.as? k = some c ↔ l = ⟨k, c⟩ := by
  obtain ⟨k', c'⟩ := l
  constructor
  · intro h
    unfold as? at h
    split at h
    · next e => cases e; cases h; rfl
    · cases h
  · intro h
    cases h
    exact as?_self ⟨k, c⟩

/-- The component of a row. -/
def get? (l : Lane) (row : Nat) : Option Scalar := l.column[row]?.map (⟨l.kind, ·⟩)

/-- Replaces the component of a row. A row past the end changes nothing and is reported. -/
def set (l : Lane) (row : Nat) (x : l.kind.Elem) : Bool × Lane :=
  (row < l.rows, ⟨l.kind, l.column.setIfInBounds row x⟩)

/-- The same component at every row. -/
def fill (l : Lane) (x : l.kind.Elem) : Lane := ⟨l.kind, Array.replicate l.rows x⟩

/-- The four bytes of a word, the lowest first. -/
def wordBytes (w : UInt32) : List UInt8 :=
  [w.toUInt8, (w >>> 8).toUInt8, (w >>> 16).toUInt8, (w >>> 24).toUInt8]

/-- The stored bytes of the components; truth values have no fixed layout. -/
def bytes? : Lane → Option (List UInt8)
  | ⟨.float, c⟩ => some (c.toList.flatMap fun x => wordBytes (Binary32.bits x))
  | ⟨.int, c⟩ => some (c.toList.flatMap fun n => wordBytes (Int32.toUInt32 n))
  | ⟨.bool, _⟩ => none

end Lane

/-! ## Registers -/

/-- The values of one variable across a batch. -/
structure Register where
  type : ShaderType
  rows : Nat
  lanes : List Lane
deriving DecidableEq

namespace Register

/-- A register has one lane for each component, of the type's kind and of its own length. -/
structure WellFormed (r : Register) : Prop where
  length_lanes : r.lanes.length = r.type.components
  kind_lane : ∀ l ∈ r.lanes, r.type.kind? = some l.kind
  rows_lane : ∀ l ∈ r.lanes, l.rows = r.rows

/-- The register with all components zero or false; `void` has no lanes. -/
def zeroed (t : ShaderType) (rows : Nat) : Register :=
  ⟨t, rows, match t.kind? with
    | some k => List.replicate t.components (Lane.zeroed k rows)
    | none => []⟩

theorem zeroed_wellFormed (t : ShaderType) (rows : Nat) : (zeroed t rows).WellFormed := by
  constructor <;> cases t <;>
    simp [zeroed, ShaderType.kind?, ShaderType.components, Lane.zeroed, Lane.rows]

/-- The register with `v` at every row. -/
def splat (v : Value) (rows : Nat) : Register :=
  ⟨v.type, rows, v.data.toList.map (Lane.splat · rows)⟩

theorem splat_wellFormed (v : Value) (rows : Nat) : (splat v rows).WellFormed where
  length_lanes := by
    simpa [splat, Components.toList, Components.length] using v.length_eq
  kind_lane := by
    simp only [splat, Components.toList, List.map_map, List.mem_map]
    rintro _ ⟨x, -, rfl⟩
    exact v.kind_eq
  rows_lane := by
    simp only [splat, Components.toList, List.map_map, List.mem_map]
    rintro _ ⟨x, -, rfl⟩
    simp [Lane.rows, Lane.splat]

/-- The register made of the given lanes, which have to be as many as the components, of the
type's kind and of one length. -/
def ofLanes (t : ShaderType) (lanes : List Lane) : Outcome Register :=
  let rows := (lanes.head?.map Lane.rows).getD 0
  if lanes.length = t.components ∧ ∀ l ∈ lanes, some l.kind = t.kind? ∧ l.rows = rows then
    .ok ⟨t, rows, lanes⟩
  else Outcome.mismatch (.lanes t lanes.length)

/-- The register made of lanes of floats. -/
def ofFloats (t : ShaderType) (columns : List (Array Binary32)) : Outcome Register :=
  ofLanes t (columns.map fun c => ⟨.float, c⟩)

/-- Lane `i` of a list of values of kind `k`. -/
def laneOfValues (k : Kind) (values : List Value) (i : Nat) : Outcome Lane := do
  let elems ← values.mapM fun v => Outcome.require ((v.component? i).bind (Scalar.as? k))
  return ⟨k, elems.toArray⟩

/-- The register with one value for each row, all of type `t`. -/
def ofValues (t : ShaderType) (values : List Value) : Outcome Register :=
  match values.find? (·.type != t) with
  | some v => Outcome.mismatch (.types t v.type)
  | none =>
    match t.kind? with
    | none => .ok (zeroed t values.length)
    | some k => do
      let lanes ← (List.range t.components).mapM (laneOfValues k values)
      return ⟨t, values.length, lanes⟩

/-- The value held at a row. -/
def rowValue? (r : Register) (row : Nat) : Option Value :=
  if row < r.rows then do
    let k ← r.type.kind?
    let elems ← r.lanes.mapM fun l => (l.as? k).bind (·[row]?)
    Value.new? r.type ⟨k, elems⟩
  else none

/-! ## Lanes of a register -/

/-- Lane `i`, which has to be of kind `k`. -/
def lane (r : Register) (k : Kind) (i : Nat) : Outcome (Array k.Elem) :=
  match r.lanes[i]?.bind (Lane.as? k) with
  | some c => .ok c
  | none => Outcome.mismatch (.lane k i r.type)

/-- The register with lane `i` replaced. -/
def setLane (r : Register) (i : Nat) (l : Lane) : Register := { r with lanes := r.lanes.set i l }

theorem lane_eq_ok {r : Register} {k : Kind} {i : Nat} {column : Array k.Elem} :
    r.lane k i = .ok column ↔ r.lanes[i]? = some ⟨k, column⟩ := by
  unfold lane
  cases h : r.lanes[i]? with
  | none => simp [Outcome.mismatch, Outcome.fail]
  | some l =>
    cases hl : l.as? k with
    | none =>
      simp only [Option.bind_some, hl, Outcome.mismatch, Outcome.fail, reduceCtorEq, false_iff,
        Option.some.injEq]
      intro e
      rw [Lane.as?_eq_some.2 e] at hl
      cases hl
    | some c =>
      rw [Lane.as?_eq_some] at hl
      subst hl
      simp [Lane.as?_self ⟨k, c⟩]

@[simp] theorem type_setLane (r : Register) (i : Nat) (l : Lane) : (r.setLane i l).type = r.type :=
  rfl

@[simp] theorem rows_setLane (r : Register) (i : Nat) (l : Lane) : (r.setLane i l).rows = r.rows :=
  rfl

/-- Changes the content of lane `i`, which has to be of kind `k`. -/
def modifyLane (r : Register) (k : Kind) (i : Nat) (f : Array k.Elem → Outcome (Array k.Elem)) :
    Outcome Register := do
  let column ← r.lane k i
  return r.setLane i ⟨k, ← f column⟩

/-- Fills lane `i`, which has to be of kind `k`. -/
def fill (r : Register) (k : Kind) (i : Nat) (x : k.Elem) : Outcome Register :=
  r.modifyLane k i fun column => .ok (Array.replicate column.size x)

/-- An action on a result register: it keeps what was written before a failure. -/
abbrev Writer (α : Type) := EStateM Failure Register α

/-- Changes the content of lane `i`, which has to be of kind `k`. -/
def modify (k : Kind) (i : Nat) (f : Array k.Elem → Outcome (Array k.Elem)) : Writer Unit := do
  let out ← get
  set (← ofExcept (out.modifyLane k i f))

end Register

end BatchShader
