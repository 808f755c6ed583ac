import BatchShader.Register

/-
  The variables of a batch: registers of one length under names.

  Names are kept in ascending order, byte by byte. `get?` is the view: each operation is described
  by what it does to the register found under a name.
-/

namespace BatchShader

structure Store where
  rows : Nat
  entries : List (String × Register)

namespace Store

def new (rows : Nat) : Store := ⟨rows, []⟩

/-- The register under a name. -/
def get? (s : Store) (name : String) : Option Register := s.entries.lookup name

def contains (s : Store) (name : String) : Bool := (s.get? name).isSome

/-- The names in ascending order. -/
def names (s : Store) : List String := s.entries.map (·.1)

/-- Puts a register in its place among the entries. -/
def place (name : String) (r : Register) : List (String × Register) → List (String × Register)
  | [] => [(name, r)]
  | (other, x) :: rest =>
    if name = other then (name, r) :: rest
    else if name < other then (name, r) :: (other, x) :: rest
    else (other, x) :: place name r rest

/-- Stores a register under a name, whatever was there before. -/
def put (s : Store) (name : String) (r : Register) : Store :=
  { s with entries := place name r s.entries }

/-- Stores a register that has the right number of rows. -/
def insert (s : Store) (name : String) (r : Register) : Outcome Store :=
  if r.rows = s.rows then .ok (s.put name r) else Outcome.mismatch (.rows s.rows r.rows)

def erase (s : Store) (name : String) : Store :=
  { s with entries := s.entries.filter fun (other, _) => other != name }

/-! ## The view -/

theorem lookup_entry (name other : String) (r : Register) (l : List (String × Register)) :
    ((name, r) :: l).lookup other = if other = name then some r else l.lookup other := by
  by_cases h : other = name
  · simp [h]
  · simp [List.lookup_cons, beq_false_of_ne h, h]

theorem lookup_place (name other : String) (r : Register) (l : List (String × Register)) :
    (place name r l).lookup other = if other = name then some r else l.lookup other := by
  induction l with
  | nil => exact lookup_entry ..
  | cons e l ih =>
    obtain ⟨k, x⟩ := e
    unfold place
    split
    · next h => subst h; simp only [lookup_entry]; split <;> rfl
    · split
      · exact lookup_entry ..
      · next h _ =>
        simp only [lookup_entry, ih]
        split <;> split <;> simp_all

@[simp] theorem get?_put (s : Store) (name other : String) (r : Register) :
    (s.put name r).get? other = if other = name then some r else s.get? other :=
  lookup_place name other r s.entries

theorem get?_insert {s s' : Store} {name : String} {r : Register} (h : s.insert name r = .ok s')
    (other : String) : s'.get? other = if other = name then some r else s.get? other := by
  unfold insert at h
  split at h
  · cases h; exact get?_put ..
  · cases h

@[simp] theorem get?_new (rows : Nat) (name : String) : (new rows).get? name = none := rfl

@[simp] theorem get?_erase (s : Store) (name other : String) :
    (s.erase name).get? other = if other = name then none else s.get? other := by
  unfold erase get?
  dsimp only
  induction s.entries with
  | nil => simp
  | cons e l ih =>
    obtain ⟨k, x⟩ := e
    by_cases hk : k = name
    · rw [List.filter_cons_of_neg (by simp [hk]), ih, lookup_entry]
      split <;> simp_all
    · rw [List.filter_cons_of_pos (by simp [hk]), lookup_entry, lookup_entry, ih]
      split <;> split <;> simp_all

end Store

end BatchShader
