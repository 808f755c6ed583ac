import BatchShader.Proofs.Interpreter.Shapes
import BatchShader.Proofs.Interpreter.WriteMask
import BatchShader.Proofs.LaneLoop

/-
  Rows of values and lanes of components are two layouts of the same data.

  A value laid out as a row is read back (`ofValues_rowValue?`), and a register that is read row by
  row and laid out again is the register it was (`ofValues_of_rows`). The second holds of all
  well-formed registers, so it is enough that writes of single components keep a register
  well-formed (`Edited.spans`): `transposes_losslessly` says it of each register that a host makes
  and then writes to.
-/

namespace BatchShader

/-- Results computed one by one from the elements of a list, each with a property. -/
theorem Outcome.exists_mapM_each {α β : Type} {f : α → Outcome β} {l : List α}
    {P : α → β → Prop} (h : ∀ a ∈ l, ∃ b, f a = .ok b ∧ P a b) :
    ∃ bs, l.mapM f = .ok bs ∧
      ∀ (i : Nat) (a : α), l[i]? = some a → ∃ b, bs[i]? = some b ∧ P a b := by
  obtain ⟨bs, hbs, hlength, hget⟩ := exists_mapM fun a ha => (h a ha).imp fun _ hb => hb.1
  refine ⟨bs, hbs, fun i a ha => ?_⟩
  have hlt : i < bs.length := hlength ▸ (List.getElem?_eq_some_iff.1 ha).1
  have hi := List.getElem?_eq_getElem hlt
  obtain ⟨b, hb, hP⟩ := h a (List.mem_of_getElem? ha)
  rw [hget i a _ ha hi, Except.ok.injEq] at hb
  exact ⟨_, hi, hb ▸ hP⟩

/-! ## Values -/

namespace Value

variable {v w : Value} {j : Nat}

theorem component?_eq_some (hj : j < v.type.components) :
    ∃ e, v.component? j = some ⟨v.data.kind, e⟩ := by
  have hlt : j < v.data.elems.length := Nat.lt_of_lt_of_eq hj v.length_eq.symm
  exact ⟨_, congrArg (Option.map _) (List.getElem?_eq_getElem hlt)⟩

/-- A value is known from its type and its components. -/
theorem ext_of_component (ht : v.type = w.type)
    (h : ∀ j < v.type.components, v.component? j = w.component? j) : v = w := by
  obtain ⟨t, ⟨k, es⟩, hk, hlength⟩ := v
  obtain ⟨t', ⟨k', es'⟩, hk', hlength'⟩ := w
  dsimp only at ht
  subst ht
  obtain rfl : k = k' := Option.some.inj (hk.symm.trans hk')
  have hes : es = es' := by
    refine List.ext_getElem (hlength.trans hlength'.symm) fun j hj hj' => ?_
    have hcomponent := h j (hlength ▸ hj)
    simp only [component?, Components.get?, List.getElem?_eq_getElem hj,
      List.getElem?_eq_getElem hj', Option.map_some, Option.some.injEq, Scalar.mk.injEq,
      heq_eq_eq, true_and] at hcomponent
    exact hcomponent
  subst hes
  rfl

/-- There is no value of type `void`. -/
theorem type_ne_void (v : Value) : v.type ≠ .void := fun h => by
  have hkind := v.kind_eq
  rw [h] at hkind
  cases hkind

end Value

/-! ## Writes to a lane -/

namespace Lane

variable {l : Lane} {row r : Nat} {x : l.kind.Elem}

/-- A write past the end changes nothing and is reported. -/
theorem set_of_le (h : l.rows ≤ row) : l.set row x = (false, l) := by
  have hcolumn : l.column.setIfInBounds row x = l.column := Array.setIfInBounds_eq_of_size_le h
  rw [set, hcolumn, decide_eq_false (Nat.not_lt.2 h)]

theorem set_of_lt (h : row < l.rows) : (l.set row x).1 = true := decide_eq_true h

@[simp] theorem kind_set (l : Lane) (row : Nat) (x : l.kind.Elem) :
    (l.set row x).2.kind = l.kind := rfl

theorem rows_set (l : Lane) (row : Nat) (x : l.kind.Elem) : (l.set row x).2.rows = l.rows :=
  Array.size_setIfInBounds

/-- A write inside replaces one component. -/
theorem get?_set (h : row < l.rows) (r : Nat) :
    (l.set row x).2.get? r = if r = row then some ⟨l.kind, x⟩ else l.get? r := by
  change (l.column.setIfInBounds row x)[r]?.map (Scalar.mk l.kind) = _
  split
  · next heq =>
    subst heq
    rw [Array.getElem?_setIfInBounds_self_of_lt h]
    rfl
  · next hne =>
    rw [Array.getElem?_setIfInBounds_ne (Ne.symm hne)]
    rfl

end Lane

namespace Register

variable {R S : Register} {t : ShaderType} {k : Kind} {values : List Value} {v : Value}
  {i j r row : Nat}

/-! ## Rows as values -/

theorem Holds.component? {es : List k.Elem} (h : R.Holds k r es) (j : Nat) :
    R.component? j r = es[j]?.map (⟨k, ·⟩) := by
  cases hj : es[j]? with
  | none =>
    have hle := List.getElem?_eq_none_iff.1 hj
    rw [Register.component?, List.getElem?_eq_none (h.length_eq ▸ hle)]
    rfl
  | some e =>
    obtain ⟨column, hcolumn, hget⟩ := h.lane j e hj
    rw [component?_of_lane hcolumn, hget]

/-- The value of a row has the components of the row. -/
theorem WellFormed.component?_of_rowValue? (hR : R.WellFormed) (h : R.rowValue? r = some v)
    (j : Nat) : R.component? j r = v.component? j := by
  have hr := lt_rows_of_rowValue? h
  cases hk : R.type.kind? with
  | none =>
    rw [← type_of_rowValue? h, v.kind_eq] at hk
    cases hk
  | some k =>
    obtain ⟨es, hes, -⟩ := hR.exists_holds hk hr
    rw [hes.rowValue? hk hr] at h
    rw [hes.component?, Value.component?, (Value.type_of_new? h).2]
    rfl

theorem WellFormed.exists_rowValue (hR : R.WellFormed) (ht : R.type ≠ .void) (hr : r < R.rows) :
    ∃ v, R.rowValue? r = some v := by
  obtain ⟨k, hk⟩ := Option.ne_none_iff_exists'.1 fun h => ht (ShaderType.kind?_eq_none.1 h)
  exact Interpreter.exists_rowValue hR (Nat.ne_of_gt (Builtin.components_pos hk)) hr

/-- The value of a row is the one that has the components of the row. -/
theorem WellFormed.rowValue?_eq_some (hR : R.WellFormed) (hr : r < R.rows) (ht : v.type = R.type)
    (h : ∀ j < R.type.components, R.component? j r = v.component? j) :
    R.rowValue? r = some v := by
  obtain ⟨w, hw⟩ := hR.exists_rowValue (ht ▸ v.type_ne_void) hr
  have hwt := type_of_rowValue? hw
  rw [hw, Value.ext_of_component (hwt.trans ht.symm) fun j hj => ?_]
  rw [← hR.component?_of_rowValue? hw, h j (hwt ▸ hj)]

/-! ## Values as rows -/

/-- A lane of values that have a component for it. -/
theorem exists_laneOfValues (h : ∀ v ∈ values, ∃ e, v.component? i = some ⟨k, e⟩) :
    ∃ l, laneOfValues k values i = .ok l ∧
      ∀ r v, values[r]? = some v → l.get? r = v.component? i := by
  have hread : ∀ v ∈ values, ∃ e,
      Outcome.require ((v.component? i).bind (Scalar.as? k)) = .ok e ∧
        v.component? i = some ⟨k, e⟩ := fun v hv => by
    obtain ⟨e, he⟩ := h v hv
    exact ⟨e, by rw [he, Option.bind_some, Scalar.as?_self ⟨k, e⟩]; rfl, he⟩
  obtain ⟨elems, helems, hget⟩ := Outcome.exists_mapM_each hread
  refine ⟨⟨k, elems.toArray⟩, Outcome.bind_eq_ok.2 ⟨elems, helems, rfl⟩, fun r v hv => ?_⟩
  obtain ⟨e, he, hcomponent⟩ := hget r v hv
  rw [hcomponent, Lane.get?, List.getElem?_toArray, he]
  rfl

/-- The lanes of values of one type. -/
theorem exists_lanesOfValues (hk : t.kind? = some k) (h : ∀ v ∈ values, v.type = t) :
    ∃ lanes, (List.range t.components).mapM (laneOfValues k values) = .ok lanes ∧
      ∀ j < t.components, ∃ l, lanes[j]? = some l ∧
        ∀ r v, values[r]? = some v → l.get? r = v.component? j := by
  have hlane : ∀ i ∈ List.range t.components, ∃ l, laneOfValues k values i = .ok l ∧
      ∀ r v, values[r]? = some v → l.get? r = v.component? i := fun i hi => by
    refine exists_laneOfValues fun v hv => ?_
    have hkind := v.kind_eq
    rw [h v hv, hk, Option.some.injEq] at hkind
    subst hkind
    exact Value.component?_eq_some (h v hv ▸ List.mem_range.1 hi)
  obtain ⟨lanes, hlanes, hget⟩ := Outcome.exists_mapM_each hlane
  exact ⟨lanes, hlanes, fun j hj => hget j j (List.getElem?_range hj)⟩

theorem eq_nil_of_void (h : ∀ v ∈ values, v.type = .void) : values = [] := by
  cases values with
  | nil => rfl
  | cons v values => exact absurd (h v List.mem_cons_self) v.type_ne_void

theorem find?_type_ne (h : ∀ v ∈ values, v.type = t) : values.find? (·.type != t) = none := by
  refine List.find?_eq_none.2 fun v hv => ?_
  rw [h v hv, bne_self_eq_false]
  exact Bool.false_ne_true

/-- Values of one type make a register of that type, in which each row has the components of its
value. -/
theorem exists_ofValues (h : ∀ v ∈ values, v.type = t) :
    ∃ R, ofValues t values = .ok R ∧ R.type = t ∧ R.rows = values.length ∧
      ∀ r v, values[r]? = some v → ∀ j < t.components, R.component? j r = v.component? j := by
  unfold ofValues
  rw [find?_type_ne h]
  cases hk : t.kind? with
  | none =>
    rw [ShaderType.kind?_eq_none] at hk
    subst hk
    exact ⟨_, rfl, rfl, rfl, fun r v _ j hj => absurd hj (Nat.not_lt_zero j)⟩
  | some k =>
    obtain ⟨lanes, hlanes, hget⟩ := exists_lanesOfValues hk h
    refine ⟨⟨t, values.length, lanes⟩, Outcome.bind_eq_ok.2 ⟨lanes, hlanes, rfl⟩, rfl, rfl,
      fun r v hv j hj => ?_⟩
    obtain ⟨l, hl, hcomponents⟩ := hget j hj
    rw [Register.component?, hl, Option.bind_some, hcomponents r v hv]

/-- Values can be laid out as a register of a type if and only if they are of this type. -/
theorem exists_ofValues_iff : (∃ R, ofValues t values = .ok R) ↔ ∀ v ∈ values, v.type = t := by
  constructor
  · rintro ⟨R, hR⟩ v hv
    unfold ofValues at hR
    split at hR
    · cases hR
    · next hnone =>
      have hne := List.find?_eq_none.1 hnone v hv
      exact Decidable.not_not.1 fun h => hne (bne_iff_ne.2 h)
  · intro h
    obtain ⟨R, hR, -⟩ := exists_ofValues h
    exact ⟨R, hR⟩

/-- A value that was laid out as a row is read back, and there are no other rows. -/
theorem ofValues_rowValue? (h : ofValues t values = .ok R) (r : Nat) :
    R.rowValue? r = values[r]? := by
  obtain ⟨S, hS, ht, hrows, hcomponents⟩ := exists_ofValues (exists_ofValues_iff.1 ⟨R, h⟩)
  obtain rfl : R = S := Except.ok.inj (h.symm.trans hS)
  cases hv : values[r]? with
  | none =>
    refine if_neg ?_
    rw [hrows]
    exact Nat.not_lt.2 (List.getElem?_eq_none_iff.1 hv)
  | some v =>
    have hr : r < R.rows := hrows ▸ (List.getElem?_eq_some_iff.1 hv).1
    have hvt := exists_ofValues_iff.1 ⟨R, h⟩ v (List.mem_of_getElem? hv)
    exact (wellFormed_of_ofValues h).rowValue?_eq_some hr (hvt.trans ht.symm)
      (ht ▸ hcomponents r v hv)

/-- The values of all rows, in order. -/
theorem WellFormed.exists_rowValues (hR : R.WellFormed) (ht : R.type ≠ .void) :
    ∃ values, (List.range R.rows).mapM R.rowValue? = some values ∧ values.length = R.rows ∧
      ∀ r v, values[r]? = some v → R.rowValue? r = some v := by
  choose valueOf hvalueOf using fun row : Fin R.rows => hR.exists_rowValue ht row.isLt
  have hget : ∀ r v, (List.ofFn valueOf)[r]? = some v → R.rowValue? r = some v := fun r v hv => by
    obtain ⟨hr, rfl⟩ := List.getElem?_eq_some_iff.1 hv
    rw [List.length_ofFn] at hr
    rw [List.getElem_ofFn]
    exact hvalueOf ⟨r, hr⟩
  refine ⟨List.ofFn valueOf, ?_, List.length_ofFn, hget⟩
  refine mapM_eq_some_of_getElem? (by rw [List.length_ofFn, List.length_range])
    fun i r v hi hv => ?_
  obtain ⟨hlt, rfl⟩ := List.getElem?_eq_some_iff.1 hi
  rw [List.getElem_range]
  exact hget i v hv

/-- The values of all rows make the register again. -/
theorem WellFormed.ofValues_of_rows (hR : R.WellFormed) (ht : R.type ≠ .void) :
    ∃ values, (List.range R.rows).mapM R.rowValue? = some values ∧
      ofValues R.type values = .ok R := by
  obtain ⟨values, hvalues, hlength, hget⟩ := hR.exists_rowValues ht
  have htypes : ∀ v ∈ values, v.type = R.type := fun v hv => by
    obtain ⟨r, hr⟩ := List.mem_iff_getElem?.1 hv
    exact type_of_rowValue? (hget r v hr)
  obtain ⟨S, hS, hSt, hrows, hcomponents⟩ := exists_ofValues htypes
  refine ⟨values, hvalues, ?_⟩
  rw [hS, ext_of_component ⟨hR, rfl⟩ ⟨wellFormed_of_ofValues hS, hrows.trans hlength⟩ hSt
    fun j hj r hr => ?_]
  have hv := List.getElem?_eq_getElem (hlength ▸ hr)
  rw [hcomponents r _ hv j hj, hR.component?_of_rowValue? (hget r _ hv)]

/-! ## Writes to a register -/

/-- The registers that writes of single components make of a register, each to a row of a lane that
exists, be the row inside or not. -/
inductive Edited (R : Register) : Register → Prop
  | refl : Edited R R
  | set {S : Register} {i : Nat} {l : Lane} (h : Edited R S) (hl : S.lanes[i]? = some l)
      (row : Nat) (x : l.kind.Elem) : Edited R (S.setLane i (l.set row x).2)

theorem Edited.type_eq (h : R.Edited S) : S.type = R.type := by
  induction h with
  | refl => rfl
  | set _ _ _ _ ih => exact ih

theorem Edited.spans (h : R.Edited S) (hR : R.WellFormed) : S.Spans R.rows := by
  induction h with
  | refl => exact ⟨hR, rfl⟩
  | @set S i l _ hl row x ih =>
    have hsize := ih.size_of_mem (List.mem_of_getElem? hl)
    exact ih.setLane hl (l.kind_set row x) ((l.rows_set row x).trans hsize)

theorem setLane_set_of_le {l : Lane} {x : l.kind.Elem} (hl : S.lanes[i]? = some l)
    (h : l.rows ≤ row) : S.setLane i (l.set row x).2 = S := by
  rw [Lane.set_of_le h, setLane_self hl]

/-- A write inside replaces one component of one row. -/
theorem component?_setLane_set {l : Lane} {x : l.kind.Elem} (hl : S.lanes[i]? = some l)
    (h : row < l.rows) (j r : Nat) :
    (S.setLane i (l.set row x).2).component? j r =
      if j = i ∧ r = row then some ⟨l.kind, x⟩ else S.component? j r := by
  have hlt := (List.getElem?_eq_some_iff.1 hl).1
  rw [component?, setLane]
  by_cases hj : j = i
  · subst hj
    rw [List.getElem?_set_self hlt, Option.bind_some, Lane.get?_set h, component?, hl,
      Option.bind_some]
    simp only [true_and]
  · rw [List.getElem?_set_ne (Ne.symm hj), if_neg fun h => hj h.1, component?]

/-! ## There and back -/

/-- What comes of laying out values as the rows of a register. -/
structure LaidOut (t : ShaderType) (values : List Value) : Prop where
  accepted_iff : (∃ R, ofValues t values = .ok R) ↔ ∀ v ∈ values, v.type = t
  void : t = .void → ((∃ R, ofValues t values = .ok R) ↔ values = [])
  rows : ∀ R, ofValues t values = .ok R →
    R.rows = values.length ∧ ∀ r, R.rowValue? r = values[r]?

/-- A register of which nothing is lost row by row, and of which a write to a lane changes what it
should and no more. -/
structure Transposed (S : Register) : Prop where
  exists_row : ∀ r < S.rows, ∃ v, S.rowValue? r = some v
  component : ∀ r v, S.rowValue? r = some v → ∀ j, v.component? j = S.component? j r
  rebuilt : ∃ values, (List.range S.rows).mapM S.rowValue? = some values ∧
    ofValues S.type values = .ok S
  set_outside : ∀ (i : Nat) (l : Lane) (row : Nat) (x : l.kind.Elem), S.lanes[i]? = some l →
    S.rows ≤ row → l.set row x = (false, l) ∧ S.setLane i (l.set row x).2 = S
  set_inside : ∀ (i : Nat) (l : Lane) (row : Nat) (x : l.kind.Elem), S.lanes[i]? = some l →
    row < S.rows → (l.set row x).1 = true ∧ ∀ j r,
      (S.setLane i (l.set row x).2).component? j r =
        if j = i ∧ r = row then some ⟨l.kind, x⟩ else S.component? j r

theorem laidOut (t : ShaderType) (values : List Value) : LaidOut t values where
  accepted_iff := exists_ofValues_iff
  void := by
    rintro rfl
    rw [exists_ofValues_iff]
    exact ⟨eq_nil_of_void, fun h => h ▸ List.forall_mem_nil _⟩
  rows R hR := by
    obtain ⟨S, hS, -, hrows, -⟩ := exists_ofValues (exists_ofValues_iff.1 ⟨R, hR⟩)
    obtain rfl : R = S := Except.ok.inj (hR.symm.trans hS)
    exact ⟨hrows, ofValues_rowValue? hR⟩

theorem WellFormed.transposed (hS : S.WellFormed) (ht : S.type ≠ .void) : S.Transposed where
  exists_row _ hr := hS.exists_rowValue ht hr
  component _ _ hv j := (hS.component?_of_rowValue? hv j).symm
  rebuilt := hS.ofValues_of_rows ht
  set_outside _ _ _ _ hl hrow := by
    have hrows := hS.rows_lane _ (List.mem_of_getElem? hl)
    exact ⟨Lane.set_of_le (hrows ▸ hrow), setLane_set_of_le hl (hrows ▸ hrow)⟩
  set_inside _ _ _ _ hl hrow := by
    have hrows := hS.rows_lane _ (List.mem_of_getElem? hl)
    exact ⟨Lane.set_of_lt (hrows ▸ hrow), component?_setLane_set hl (hrows ▸ hrow)⟩

/-- Rows and lanes are transposed without loss. Values are laid out if and only if they have the
type of the register, and are its rows then. A register of a type that has values, made in any way
and then written to in any way, has a value in each row, and these make the same register, bit for
bit. -/
theorem transposes_losslessly :
    (∀ t values, LaidOut t values) ∧
      ∀ R S : Register, R.Constructed → R.type ≠ .void → R.Edited S →
        S.type = R.type ∧ S.rows = R.rows ∧ S.Transposed := by
  refine ⟨laidOut, fun R S hR ht h => ?_⟩
  obtain ⟨hS, hrows⟩ := h.spans hR.wellFormed
  exact ⟨h.type_eq, hrows, hS.transposed (h.type_eq ▸ ht)⟩

/-- A NaN with a payload is written to one row, and to a row past the end. -/
theorem transposes_losslessly_payload :
    let R : Register := ⟨.vec2, 2, [⟨.float, #[.zero, .one]⟩, ⟨.float, #[.one, .two]⟩]⟩
    let S : Register := ⟨.vec2, 2, [⟨.float, #[.zero, .one]⟩, ⟨.float, #[⟨0x7fc00123⟩, .two]⟩]⟩
    R.Constructed ∧ R.type ≠ .void ∧ R.Edited S ∧ S.Transposed := by
  intro R S
  have hR : R.Constructed := by
    have hlanes : ofLanes .vec2 R.lanes = .ok R := by decide
    exact .ofLanes hlanes
  have hS : R.Edited S := by
    let lane : Lane := ⟨.float, #[.one, .two]⟩
    have hinside : R.Edited (R.setLane 1 (lane.set 0 ⟨0x7fc00123⟩).2) := .set .refl rfl 0 _
    let lane' : Lane := ⟨.float, #[⟨0x7fc00123⟩, .two]⟩
    have houtside : R.Edited (S.setLane 1 (lane'.set 7 .one).2) := .set hinside rfl 7 _
    exact houtside
  exact ⟨hR, by decide, hS, (transposes_losslessly.2 R S hR (by decide) hS).2.2⟩

end Register

end BatchShader
