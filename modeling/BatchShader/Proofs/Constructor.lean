import BatchShader.Proofs.Interpreter.WriteMask
import BatchShader.Proofs.LaneLoop

/-
  Constructors, row by row.

  `Rule t k args out r` says what row `r` of a constructed register holds: a scalar in every
  component or on the diagonal, the common part of two matrices and the identity around it, or the
  first components of the arguments taken together. `constructors_follow_rules`: a constructor
  leaves this at each live row and zero at the others, and fails only for want of components.

  Each form is a loop that writes every lane at most once (`exists_lanesWritten`), from the lane of
  an argument, with one, or not at all. Two facts follow from the rules alone: a matrix that is made
  larger and cut back is the same at live rows, and so is a vector made from its own components.
-/

namespace BatchShader

/-- A component in another kind. -/
def Scalar.convert (k : Kind) (e : Scalar) : Scalar := ⟨k, e.kind.convert k e.elem⟩

theorem Scalar.convert_of_kind {e : Scalar} {k : Kind} (h : e.kind = k) : e.convert k = e := by
  subst h
  exact congrArg (Scalar.mk e.kind) (e.kind.convert_self e.elem)

theorem ShaderType.kind?_of_isMatrix {t : ShaderType} (h : t.isMatrix = true) :
    t.kind? = some .float := by
  cases t <;> first | rfl | cases h

/-- The scalars that a vector type is made of. -/
theorem ShaderType.components_of_scalar? {t u : ShaderType} (ht : t.isVector = true)
    (hu : t.scalar? = some u) :
    u.components = 1 ∧ u.kind? = t.kind? ∧ t.components < 256 ∧ 2 ≤ t.components := by
  cases t <;> first | (cases hu; decide) | cases ht

/-! ## Components of a row -/

/-- The components of a row, one after the other. -/
def Register.rowComponents (x : Register) (r : Nat) : List Scalar := x.lanes.filterMap (·.get? r)

/-- Elements that stand for one element each keep their places. -/
theorem getElem?_flatMap_singletons {α β : Type} {f : α → List β} {g : α → Option β}
    {l : List α} (h : ∀ a ∈ l, ∃ b, g a = some b ∧ f a = [b]) (j : Nat) :
    (l.flatMap f)[j]? = l[j]?.bind g := by
  induction l generalizing j with
  | nil => rfl
  | cons a l ih =>
    rw [List.forall_mem_cons] at h
    obtain ⟨b, hb, hf⟩ := h.1
    rw [List.flatMap_cons, hf]
    cases j with
    | zero => exact hb.symm
    | succ j => exact ih h.2 j

theorem getElem?_filterMap {α β : Type} {f : α → Option β} {l : List α}
    (h : ∀ a ∈ l, ∃ b, f a = some b) (j : Nat) : (l.filterMap f)[j]? = l[j]?.bind f := by
  rw [List.filterMap_eq_flatMap_toList]
  refine getElem?_flatMap_singletons (fun a ha => ?_) j
  obtain ⟨b, hb⟩ := h a ha
  exact ⟨b, hb, by rw [hb]; rfl⟩

theorem Register.Spans.rowComponents_of_one {x : Register} {rows r : Nat} (h : x.Spans rows)
    (hone : x.type.components = 1) (hr : r < rows) :
    ∃ e, x.component? 0 r = some e ∧ x.rowComponents r = [e] := by
  obtain ⟨e, he⟩ := h.1.exists_component (hone ▸ Nat.one_pos) (h.2 ▸ hr)
  obtain ⟨l, hl⟩ := List.length_eq_one_iff.1 (h.1.length_lanes.trans hone)
  refine ⟨e, he, ?_⟩
  rw [component?, hl] at he
  rw [rowComponents, hl]
  exact List.filterMap_cons_some he

/-! ## The rules, at one row -/

namespace Constructor

/-- A scalar in every component, or on the diagonal of a matrix with zero elsewhere. -/
def FromScalar (t : ShaderType) (k : Kind) (x out : Register) (r : Nat) : Prop :=
  ∃ e, x.component? 0 r = some e ∧
    if t.isMatrix then
      ∀ i < t.dimension, ∀ c < t.dimension, out.component? (c * t.dimension + i) r =
        some (if i = c then e.convert k else ⟨k, k.zero⟩)
    else ∀ j < t.components, out.component? j r = some (e.convert k)

/-- The upper left part that two matrices have in common, and the identity elsewhere. -/
def FromMatrix (t : ShaderType) (x out : Register) (r : Nat) : Prop :=
  ∀ i < t.dimension, ∀ c < t.dimension, out.component? (c * t.dimension + i) r =
    if i < x.type.dimension ∧ c < x.type.dimension then x.component? (c * x.type.dimension + i) r
    else some (.float (if i = c then .one else .zero))

/-- The first components of the arguments taken together. -/
def FromComponents (t : ShaderType) (k : Kind) (args : List Register) (out : Register) (r : Nat) :
    Prop :=
  ∀ j < t.components, ∃ e, (args.flatMap (·.rowComponents r))[j]? = some e ∧
    out.component? j r = some (e.convert k)

/-- What a constructor gives at a row. -/
def Rule (t : ShaderType) (k : Kind) : List Register → Register → Nat → Prop
  | [x] =>
    if x.type.isScalar then FromScalar t k x
    else if x.type.isMatrix && t.isMatrix then FromMatrix t x
    else FromComponents t k [x]
  | args => FromComponents t k args

/-- The number of components of some arguments. -/
def supply (args : List Register) : Nat := args.foldr (fun x n => x.type.components + n) 0

theorem supply_of_scalars {args : List Register} (h : ∀ x ∈ args, x.type.components = 1) :
    supply args = args.length := by
  induction args with
  | nil => rfl
  | cons x args ih =>
    rw [List.forall_mem_cons] at h
    rw [List.length_cons, ← ih h.2, Nat.add_comm, ← h.1]
    rfl

/-- Arguments that are taken component by component, but do not have enough of them. -/
def TooFew (t : ShaderType) : List Register → Prop
  | [x] => x.type.isScalar = false ∧ (x.type.isMatrix && t.isMatrix) = false ∧
      supply [x] < t.components
  | args => supply args < t.components

end Constructor

open Constructor

/-! ## Steps of the loops -/

namespace Sweep

variable {s : Sweep} {t : ShaderType} {k : Kind} {out : Register} {i row : Nat}

/-- What a conversion does at a row. -/
def convertStep (k : Kind) (src : Lane) : RowStep k.Elem := fun r _ =>
  return src.kind.convert k (← rowOf src.column r)

theorem convertStep_eq_ok {src : Lane} {e : Scalar} (h : src.get? row = some e) (old : k.Elem) :
    convertStep k src row old = .ok (e.kind.convert k e.elem) := by
  obtain ⟨x, hx, rfl⟩ := Option.map_eq_some_iff.1 h
  rw [convertStep, rowOf_eq_ok.2 hx]
  rfl

theorem exists_convertInto_wrote (hc : s.chain.Closed) {src : Lane}
    (hsrc : src.column.size = s.chain.rows) {old : Array k.Elem} (hold : out.lane k i = .ok old)
    (hsize : old.size = s.chain.rows) :
    ∃ new, s.convertInto src out i = .ok (out.setLane i ⟨k, new⟩) ∧
      (convertStep k src).Wrote s.chain.visited old new := by
  obtain ⟨new, hnew, hwrote⟩ := exists_wrote hc (convertStep k src) hsize fun r hr _ => by
    obtain ⟨x, hx⟩ := LiveChain.exists_getElem?_of_mem_visited hsrc hr
    exact ⟨_, convertStep_eq_ok (Option.map_eq_some_iff.2 ⟨x, hx, rfl⟩) _⟩
  refine ⟨new, ?_, hwrote⟩
  rw [convertInto, Register.lane_eq_ok.1 hold]
  exact Outcome.bind_eq_ok.2 ⟨⟨k, new⟩, Outcome.bind_eq_ok.2 ⟨new, hnew, rfl⟩, rfl⟩

theorem exists_fillOneInto_wrote (hc : s.chain.Closed) {old : Array k.Elem}
    (hold : out.lane k i = .ok old) (hsize : old.size = s.chain.rows) :
    ∃ new, s.fillOneInto out i = .ok (out.setLane i ⟨k, new⟩) ∧
      RowStep.Wrote (fun _ _ => .ok k.one) s.chain.visited old new := by
  obtain ⟨new, hnew, hwrote⟩ := exists_wrote hc (fun _ _ => .ok k.one) hsize fun _ _ _ => ⟨_, rfl⟩
  refine ⟨new, ?_, hwrote⟩
  rw [fillOneInto, Register.lane_eq_ok.1 hold]
  exact Outcome.bind_eq_ok.2 ⟨⟨k, new⟩, Outcome.bind_eq_ok.2 ⟨new, hnew, rfl⟩, rfl⟩

/-- A lane that is left as it is. -/
theorem wrote_self {old : Array k.Elem} (hsize : old.size = s.chain.rows) :
    RowStep.Wrote (fun _ x => .ok x) s.chain.visited old old := by
  refine ⟨rfl, fun r hr => ?_, fun _ _ => rfl⟩
  obtain ⟨x, hx⟩ := LiveChain.exists_getElem?_of_mem_visited hsize hr
  exact ⟨x, x, hx, rfl, hx⟩

/-- Over a chain that leads out of the batch no lane can be converted. -/
theorem convertInto_stray (hc : ¬s.chain.Closed) (src : Lane) {dst : Lane}
    (hdst : out.lanes[i]? = some dst) : s.convertInto src out i = .error .outOfRange := by
  rw [convertInto, hdst]
  have hconvert : s.convertLane src dst = .error .outOfRange := by
    rw [convertLane, map1, map, apply_stray hc]
    rfl
  dsimp only
  rw [hconvert]
  rfl

/-! ## The three forms -/

variable {x : Register}

/-- The lanes that a scalar is written to. -/
def scalarTargets (t : ShaderType) : List Nat :=
  if t.isMatrix then (List.range t.dimension).map fun d => d * t.dimension + d
  else List.range t.components

theorem nodup_scalarTargets (t : ShaderType) : ((scalarTargets t).map id).Nodup := by
  cases t <;> decide

theorem lt_of_mem_scalarTargets (t : ShaderType) : ∀ j ∈ scalarTargets t, j < t.components := by
  cases t <;> decide

theorem exists_fromScalar (hc : s.chain.Closed) (hk : t.kind? = some k)
    (hx : x.Spans s.chain.rows) (hscalar : x.type.isScalar = true) :
    ∃ out, s.constructFromScalar t x = .ok out ∧ s.LiveOnly t k out ∧
      ∀ row ∈ s.chain.visited, FromScalar t k x out row := by
  have hpos : 0 < x.type.components := by
    rw [ShaderType.components_of_isScalar hscalar]
    exact Nat.one_pos
  have hlen : 0 < x.lanes.length := hx.1.length_lanes ▸ hpos
  obtain ⟨out, hout, hwritten⟩ := Register.exists_lanesWritten (c := s.chain)
    (l := scalarTargets t) (f := fun out i => s.convertInto x.lanes[0] out i) id
    (fun _ => convertStep k x.lanes[0]) (spans_blank t) hk (nodup_scalarTargets t)
    (lt_of_mem_scalarTargets t) fun i _ out old hold hsize =>
      exists_convertInto_wrote hc (hx.size_of_mem (List.getElem_mem hlen)) hold hsize
  refine ⟨out, ?_, liveOnly_of_kept hk hwritten.kept, fun row hrow => ?_⟩
  · rw [constructFromScalar, List.getElem?_eq_getElem hlen, Outcome.require_some, Outcome.ok_bind]
    exact hout
  have hlt := LiveChain.lt_rows_of_mem_visited hrow
  obtain ⟨e, he⟩ := hx.1.exists_component hpos (hx.2 ▸ hlt)
  have hget : x.lanes[0].get? row = some e := by
    rwa [Register.component?, List.getElem?_eq_getElem hlen] at he
  have htarget : ∀ j ∈ scalarTargets t, out.component? j row = some (e.convert k) := fun j hj =>
    hwritten.component hk rfl hj (lt_of_mem_scalarTargets t j hj) hrow (convertStep_eq_ok hget _)
  refine ⟨e, he, ?_⟩
  split
  · next hm =>
    intro i hi c hcn
    split
    · next hic =>
      refine htarget _ ?_
      rw [scalarTargets, if_pos hm, hic]
      exact List.mem_map.2 ⟨c, List.mem_range.2 hcn, rfl⟩
    · next hic =>
      refine hwritten.blank_component hk ?_ hlt fun hmem => hic ?_
      · rw [ShaderType.components_of_isMatrix hm]
        exact Register.index_lt hi hcn
      · rw [List.map_id, scalarTargets, if_pos hm] at hmem
        obtain ⟨d, hd, heq⟩ := List.mem_map.1 hmem
        obtain ⟨rfl, rfl⟩ := Register.index_inj (List.mem_range.1 hd) hi heq
        rfl
  · next hm =>
    refine fun j hj => htarget j ?_
    rw [scalarTargets, if_neg hm]
    exact List.mem_range.2 hj

/-- The places of a matrix, by column and row. -/
def places (n : Nat) : List (Nat × Nat) :=
  (List.range n).flatMap fun c => (List.range n).map fun r => (c, r)

theorem mem_places {n : Nat} {p : Nat × Nat} : p ∈ places n ↔ p.1 < n ∧ p.2 < n := by
  simp only [places, List.mem_flatMap, List.mem_map, List.mem_range]
  constructor
  · rintro ⟨c, hc, r, hr, rfl⟩
    exact ⟨hc, hr⟩
  · rintro ⟨hc, hr⟩
    exact ⟨p.1, hc, p.2, hr, rfl⟩

theorem nodup_places (t : ShaderType) :
    ((places t.dimension).map fun p => p.1 * t.dimension + p.2).Nodup := by
  cases t <;> decide

/-- What a matrix from a matrix does with a place: a lane of the argument is copied, the rest of the
diagonal is filled, and the other places are left as they are. -/
def placeStep (k : Kind) (x : Register) (p : Nat × Nat) : RowStep k.Elem :=
  if p.1 < x.type.dimension ∧ p.2 < x.type.dimension then
    convertStep k (x.lanes.getD (p.1 * x.type.dimension + p.2) (.zeroed k 0))
  else if p.1 = p.2 then fun _ _ => .ok k.one
  else fun _ old => .ok old

/-- The lane of a matrix at a place that it has. -/
theorem getElem?_place {p : Nat × Nat} (hx : x.WellFormed) (hm : x.type.isMatrix = true)
    (hp : p.1 < x.type.dimension ∧ p.2 < x.type.dimension) (default : Lane) :
    x.lanes[p.1 * x.type.dimension + p.2]? =
      some (x.lanes.getD (p.1 * x.type.dimension + p.2) default) := by
  have hlt : p.1 * x.type.dimension + p.2 < x.lanes.length := by
    rw [hx.length_lanes, ShaderType.components_of_isMatrix hm]
    exact Register.index_lt hp.2 hp.1
  rw [List.getD_eq_getElem?_getD, List.getElem?_eq_getElem hlt]
  rfl

/-- What a matrix from a matrix does with a place, over the batch. -/
def placeInto (s : Sweep) (t : ShaderType) (x out : Register) (p : Nat × Nat) :
    Outcome Register :=
  if p.1 < x.type.dimension ∧ p.2 < x.type.dimension then do
    s.convertInto (← Outcome.require x.lanes[p.1 * x.type.dimension + p.2]?) out
      (p.1 * t.dimension + p.2)
  else if p.1 = p.2 then s.fillOneInto out (p.1 * t.dimension + p.2)
  else .ok out

theorem constructFromMatrix_eq (s : Sweep) (t : ShaderType) (x : Register) :
    s.constructFromMatrix t x = (places t.dimension).foldlM (s.placeInto t x) (s.blank t) := rfl

theorem exists_placeInto_wrote (hc : s.chain.Closed) (hx : x.Spans s.chain.rows)
    (hxm : x.type.isMatrix = true) (p : Nat × Nat) {old : Array Kind.float.Elem}
    (hold : out.lane .float (p.1 * t.dimension + p.2) = .ok old)
    (hsize : old.size = s.chain.rows) :
    ∃ new, s.placeInto t x out p = .ok (out.setLane (p.1 * t.dimension + p.2) ⟨.float, new⟩) ∧
      (placeStep .float x p).Wrote s.chain.visited old new := by
  unfold placeInto placeStep
  split
  · next hin =>
    have hlane := getElem?_place hx.1 hxm hin (.zeroed .float 0)
    rw [hlane, Outcome.require_some, Outcome.ok_bind]
    exact exists_convertInto_wrote hc (hx.size_of_mem (List.mem_of_getElem? hlane)) hold hsize
  · split
    · exact exists_fillOneInto_wrote hc hold hsize
    · refine ⟨old, ?_, wrote_self hsize⟩
      rw [Register.setLane_self (Register.lane_eq_ok.1 hold)]

/-- From zero, a place gets what the matrix has there, or the entry of the identity. -/
theorem exists_placeStep_eq_ok (hx : x.Spans s.chain.rows) (hxm : x.type.isMatrix = true)
    (hrow : row < s.chain.rows) (c i : Nat) :
    ∃ e, placeStep .float x (c, i) row .zero = .ok e ∧
      (if i < x.type.dimension ∧ c < x.type.dimension then
        x.component? (c * x.type.dimension + i) row
      else some (.float (if i = c then .one else .zero))) = some (.float e) := by
  unfold placeStep
  by_cases hin : c < x.type.dimension ∧ i < x.type.dimension
  · have hlane := getElem?_place (p := (c, i)) hx.1 hxm hin (.zeroed .float 0)
    have hlt : c * x.type.dimension + i < x.type.components := by
      rw [ShaderType.components_of_isMatrix hxm]
      exact Register.index_lt hin.2 hin.1
    obtain ⟨e, he⟩ := hx.1.exists_component hlt (hx.2.symm ▸ hrow)
    have hkind := hx.1.kind_component (ShaderType.kind?_of_isMatrix hxm) he
    refine ⟨e.kind.convert .float e.elem, ?_, ?_⟩
    · rw [if_pos hin]
      refine convertStep_eq_ok ?_ _
      rwa [Register.component?, hlane] at he
    · rw [if_pos hin.symm, he]
      exact congrArg some (Scalar.convert_of_kind hkind).symm
  · have hin' : ¬(i < x.type.dimension ∧ c < x.type.dimension) := fun h => hin h.symm
    rw [if_neg hin, if_neg hin']
    by_cases hic : i = c
    · exact ⟨.one, by rw [if_pos hic.symm]; rfl, by rw [if_pos hic]⟩
    · exact ⟨.zero, by rw [if_neg fun h => hic h.symm], by rw [if_neg hic]⟩

theorem exists_fromMatrix (hc : s.chain.Closed) (hx : x.Spans s.chain.rows)
    (hxm : x.type.isMatrix = true) (htm : t.isMatrix = true) :
    ∃ out, s.constructFromMatrix t x = .ok out ∧ s.LiveOnly t .float out ∧
      ∀ row ∈ s.chain.visited, FromMatrix t x out row := by
  have hk : t.kind? = some .float := ShaderType.kind?_of_isMatrix htm
  have hbound : ∀ p ∈ places t.dimension, p.1 * t.dimension + p.2 < t.components := fun p hp => by
    rw [ShaderType.components_of_isMatrix htm]
    exact Register.index_lt (mem_places.1 hp).2 (mem_places.1 hp).1
  obtain ⟨out, hout, hwritten⟩ := Register.exists_lanesWritten (c := s.chain)
    (l := places t.dimension) (f := s.placeInto t x) (fun p => p.1 * t.dimension + p.2)
    (placeStep .float x) (spans_blank t) hk (nodup_places t) hbound
    fun p _ _ _ hold hsize => exists_placeInto_wrote hc hx hxm p hold hsize
  refine ⟨out, hout, liveOnly_of_kept hk hwritten.kept, fun row hrow i hi c hcn => ?_⟩
  have hmem : (c, i) ∈ places t.dimension := mem_places.2 ⟨hcn, hi⟩
  obtain ⟨e, hstep, he⟩ :=
    exists_placeStep_eq_ok hx hxm (LiveChain.lt_rows_of_mem_visited hrow) c i
  exact (hwritten.component hk rfl hmem (hbound _ hmem) hrow hstep).trans he.symm

section Components

variable {args : List Register}

theorem length_lanes (hargs : ∀ x ∈ args, x.WellFormed) :
    (args.flatMap Register.lanes).length = supply args := by
  induction args with
  | nil => rfl
  | cons x args ih =>
    rw [List.forall_mem_cons] at hargs
    rw [List.flatMap_cons, List.length_append, hargs.1.length_lanes, ih hargs.2]
    rfl

/-- A component of the arguments taken together. -/
theorem getElem?_rowComponents (hargs : ∀ x ∈ args, x.Spans s.chain.rows)
    (hrow : row < s.chain.rows) (j : Nat) :
    (args.flatMap (·.rowComponents row))[j]? =
      (args.flatMap Register.lanes)[j]?.bind (·.get? row) := by
  have hflat : args.flatMap (·.rowComponents row) =
      (args.flatMap Register.lanes).filterMap (·.get? row) := by
    rw [List.filterMap_flatMap]
    rfl
  rw [hflat]
  refine getElem?_filterMap (fun l hl => ?_) j
  obtain ⟨x, hx, hl⟩ := List.mem_flatMap.1 hl
  have hlt : row < l.column.size := (hargs x hx).size_of_mem hl ▸ hrow
  exact ⟨_, Option.map_eq_some_iff.2 ⟨_, Array.getElem?_eq_getElem hlt, rfl⟩⟩

theorem exists_fromComponents (hc : s.chain.Closed) (hk : t.kind? = some k)
    (hargs : ∀ x ∈ args, x.Spans s.chain.rows) (henough : t.components ≤ supply args) :
    ∃ out, s.constructFromComponents t args = .ok out ∧ s.LiveOnly t k out ∧
      ∀ row ∈ s.chain.visited, FromComponents t k args out row := by
  have hlength := length_lanes fun x hx => (hargs x hx).1
  have hsources : ((args.flatMap Register.lanes).take t.components).length = t.components := by
    rw [List.length_take, hlength]
    exact Nat.min_eq_left henough
  have hbound : ∀ p ∈ ((args.flatMap Register.lanes).take t.components).zipIdx,
      p.2 < t.components := fun p hp => by
    have := List.snd_lt_of_mem_zipIdx hp
    omega
  obtain ⟨out, hout, hwritten⟩ := Register.exists_lanesWritten (c := s.chain)
    (l := ((args.flatMap Register.lanes).take t.components).zipIdx)
    (f := fun out p => s.convertInto p.1 out p.2) Prod.snd (fun p => convertStep k p.1)
    (spans_blank t) hk (by rw [List.zipIdx_map_snd]; exact List.nodup_range') hbound
    fun p hp out old hold hsize => by
      have hmem := List.mem_of_mem_take (List.fst_mem_of_mem_zipIdx hp)
      obtain ⟨x, hx, hl⟩ := List.mem_flatMap.1 hmem
      exact exists_convertInto_wrote hc ((hargs x hx).size_of_mem hl) hold hsize
  refine ⟨out, constructFromComponents_eq_ok.2 ⟨by omega, hout⟩,
    liveOnly_of_kept hk hwritten.kept, fun row hrow j hj => ?_⟩
  have hj' : j < (args.flatMap Register.lanes).length := by omega
  have hlane := List.getElem?_eq_getElem hj'
  obtain ⟨x, hx, hl⟩ := List.mem_flatMap.1 (List.getElem_mem hj')
  have hlt : row < (args.flatMap Register.lanes)[j].column.size :=
    (hargs x hx).size_of_mem hl ▸ LiveChain.lt_rows_of_mem_visited hrow
  obtain ⟨e, he⟩ : ∃ e, (args.flatMap Register.lanes)[j].get? row = some e :=
    ⟨_, Option.map_eq_some_iff.2 ⟨_, Array.getElem?_eq_getElem hlt, rfl⟩⟩
  refine ⟨e, ?_, ?_⟩
  · rw [getElem?_rowComponents hargs (LiveChain.lt_rows_of_mem_visited hrow), hlane]
    exact he
  · have hmem : ((args.flatMap Register.lanes)[j], j) ∈
        ((args.flatMap Register.lanes).take t.components).zipIdx := by
      refine List.mem_iff_getElem?.2 ⟨j, ?_⟩
      rw [List.getElem?_zipIdx, List.getElem?_take_of_lt hj, hlane, Nat.zero_add]
      rfl
    exact hwritten.component hk rfl hmem hj hrow (convertStep_eq_ok he _)

theorem constructFromComponents_of_lt (hargs : ∀ x ∈ args, x.WellFormed)
    (hfew : supply args < t.components) :
    s.constructFromComponents t args = Outcome.mismatch (.tooFewComponents t (supply args)) := by
  have hsources : ((args.flatMap Register.lanes).take t.components).length = supply args := by
    rw [List.length_take, length_lanes hargs]
    exact Nat.min_eq_right (Nat.le_of_lt hfew)
  rw [constructFromComponents, hsources]
  exact if_pos hfew

end Components

/-! ## Chains that lead out of the batch -/

section Stray

variable {args : List Register}

theorem exists_blank_lane (hk : t.kind? = some k) {j : Nat} (hj : j < t.components) :
    ∃ dst, (s.blank t).lanes[j]? = some dst := by
  obtain ⟨column, hcolumn, -⟩ := (spans_blank (s := s) t).1.exists_lane hk hj
  exact ⟨_, Register.lane_eq_ok.1 hcolumn⟩

theorem constructFromScalar_stray (hc : ¬s.chain.Closed) (hk : t.kind? = some k)
    (hx : x.WellFormed) (hscalar : x.type.isScalar = true) :
    s.constructFromScalar t x = .error .outOfRange := by
  have hlen : 0 < x.lanes.length := by
    rw [hx.length_lanes, ShaderType.components_of_isScalar hscalar]
    exact Nat.one_pos
  have htargets : scalarTargets t = 0 :: (scalarTargets t).tail := by
    cases t <;> first | rfl | cases hk
  obtain ⟨dst, hdst⟩ := exists_blank_lane (s := s) hk (Builtin.components_pos hk)
  rw [constructFromScalar, List.getElem?_eq_getElem hlen, Outcome.require_some, Outcome.ok_bind]
  change (scalarTargets t).foldlM (fun out i => s.convertInto x.lanes[0] out i) (s.blank t) = _
  rw [htargets, List.foldlM_cons, convertInto_stray hc _ hdst]
  rfl

theorem constructFromMatrix_stray (hc : ¬s.chain.Closed) (hx : x.WellFormed)
    (hxm : x.type.isMatrix = true) (htm : t.isMatrix = true) :
    s.constructFromMatrix t x = .error .outOfRange := by
  have hplaces : places t.dimension = (0, 0) :: (places t.dimension).tail := by
    cases t <;> first | rfl | cases htm
  have hpos : 0 < x.type.dimension := by
    generalize x.type = u at hxm
    cases u <;> first | decide | cases hxm
  obtain ⟨dst, hdst⟩ := exists_blank_lane (s := s) (ShaderType.kind?_of_isMatrix htm)
    (Builtin.components_pos (ShaderType.kind?_of_isMatrix htm))
  have hlane := getElem?_place (p := (0, 0)) hx hxm ⟨hpos, hpos⟩ (.zeroed .float 0)
  have hfirst : (s.blank t).lanes[0 * t.dimension + 0]? = some dst := by rwa [Nat.zero_mul]
  rw [constructFromMatrix_eq, hplaces, List.foldlM_cons, placeInto, if_pos ⟨hpos, hpos⟩, hlane,
    Outcome.require_some, Outcome.ok_bind, convertInto_stray hc _ hfirst]
  rfl

theorem constructFromComponents_stray (hc : ¬s.chain.Closed) (hk : t.kind? = some k)
    (hargs : ∀ x ∈ args, x.WellFormed) (henough : t.components ≤ supply args) :
    s.constructFromComponents t args = .error .outOfRange := by
  have hpos := Builtin.components_pos hk
  obtain ⟨dst, hdst⟩ := exists_blank_lane (s := s) hk hpos
  have hsources : ((args.flatMap Register.lanes).take t.components).length = t.components := by
    rw [List.length_take, length_lanes hargs]
    exact Nat.min_eq_left henough
  unfold constructFromComponents
  dsimp only
  rw [if_neg (by omega)]
  obtain ⟨src, rest, hrest⟩ := List.exists_cons_of_length_pos (hsources ▸ hpos)
  rw [hrest, List.zipIdx_cons, List.foldlM_cons]
  dsimp only
  rw [convertInto_stray hc _ hdst]
  rfl

end Stray

/-! ## Constructor calls -/

section Calls

variable {args : List Register}

theorem construct_tooFew (hargs : ∀ x ∈ args, x.WellFormed) (h : TooFew t args) :
    s.construct t args = Outcome.mismatch (.tooFewComponents t (supply args)) := by
  unfold construct
  match args, h with
  | [], h | _ :: _ :: _, h => exact constructFromComponents_of_lt hargs h
  | [x], ⟨hscalar, hmatrix, hfew⟩ =>
    dsimp only
    rw [hscalar, hmatrix]
    exact constructFromComponents_of_lt hargs hfew

theorem exists_construct (hc : s.chain.Closed) (hk : t.kind? = some k)
    (hargs : ∀ x ∈ args, x.Spans s.chain.rows) (h : ¬TooFew t args) :
    ∃ out, s.construct t args = .ok out ∧ s.LiveOnly t k out ∧
      ∀ row ∈ s.chain.visited, Rule t k args out row := by
  unfold construct Rule
  match args, h with
  | [], h | _ :: _ :: _, h => exact exists_fromComponents hc hk hargs (Nat.le_of_not_lt h)
  | [x], h =>
    have hx := hargs x List.mem_cons_self
    dsimp only
    by_cases hscalar : x.type.isScalar = true
    · rw [if_pos hscalar, if_pos hscalar]
      exact exists_fromScalar hc hk hx hscalar
    · rw [if_neg hscalar, if_neg hscalar]
      by_cases hmatrix : (x.type.isMatrix && t.isMatrix) = true
      · rw [if_pos hmatrix, if_pos hmatrix]
        obtain ⟨hxm, htm⟩ := Bool.and_eq_true_iff.1 hmatrix
        obtain rfl : Kind.float = k :=
          Option.some.inj ((ShaderType.kind?_of_isMatrix htm).symm.trans hk)
        exact exists_fromMatrix hc hx hxm htm
      · rw [if_neg hmatrix, if_neg hmatrix]
        refine exists_fromComponents hc hk hargs (Nat.le_of_not_lt fun hfew => h ?_)
        exact ⟨Bool.eq_false_iff.2 hscalar, Bool.eq_false_iff.2 hmatrix, hfew⟩

theorem construct_stray (hc : ¬s.chain.Closed) (hk : t.kind? = some k)
    (hargs : ∀ x ∈ args, x.WellFormed) (h : ¬TooFew t args) :
    s.construct t args = .error .outOfRange := by
  unfold construct
  match args, h with
  | [], h | _ :: _ :: _, h => exact constructFromComponents_stray hc hk hargs (Nat.le_of_not_lt h)
  | [x], h =>
    have hx := hargs x List.mem_cons_self
    dsimp only
    split
    · next hscalar => exact constructFromScalar_stray hc hk hx hscalar
    · next hscalar =>
      split
      · next hmatrix =>
        obtain ⟨hxm, htm⟩ := Bool.and_eq_true_iff.1 hmatrix
        exact constructFromMatrix_stray hc hx hxm htm
      · next hmatrix =>
        refine constructFromComponents_stray hc hk hargs (Nat.le_of_not_lt fun hfew => h ?_)
        exact ⟨Bool.eq_false_iff.2 hscalar, Bool.eq_false_iff.2 hmatrix, hfew⟩

end Calls

/-! ## Constructors that undo each other -/

section Inverses

variable {u : ShaderType}

theorem construct_of_matrix (hxm : x.type.isMatrix = true) (htm : t.isMatrix = true) :
    s.construct t [x] = s.constructFromMatrix t x := by
  have hscalar : ¬x.type.isScalar = true := by
    generalize x.type = v at hxm
    cases v <;> first | decide | cases hxm
  exact (if_neg hscalar).trans (if_pos (Bool.and_eq_true_iff.2 ⟨hxm, htm⟩))

/-- A matrix can be made larger and cut back. -/
theorem exists_construct_back (hc : s.chain.Closed) (htm : t.isMatrix = true)
    (hum : u.isMatrix = true) (hle : t.dimension ≤ u.dimension) (hxt : x.type = t)
    (hx : x.Spans s.chain.rows) :
    ∃ y out, s.construct u [x] = .ok y ∧ s.construct t [y] = .ok out ∧ s.LiveOnly t .float out ∧
      ∀ row ∈ s.chain.visited, out.atRow row = x.atRow row := by
  subst hxt
  obtain ⟨y, hy, hylive, hyrow⟩ := exists_fromMatrix hc hx htm hum
  obtain ⟨out, hout, houtlive, houtrow⟩ :=
    exists_fromMatrix hc hylive.spans (by rw [hylive.type_eq, hum]) htm
  refine ⟨y, out, (construct_of_matrix htm hum).trans hy,
    (construct_of_matrix (by rw [hylive.type_eq, hum]) htm).trans hout, houtlive,
    fun row hrow => ?_⟩
  refine Register.atRow_eq_of_component hx.1 houtlive.spans.1 houtlive.type_eq fun j hj => ?_
  -- the place that the component has in both
  rw [ShaderType.components_of_isMatrix htm] at hj
  obtain ⟨i, hi, c, hcn, rfl⟩ := Register.exists_index hj
  have hback := houtrow row hrow i hi c hcn
  rw [hylive.type_eq, if_pos ⟨Nat.lt_of_lt_of_le hi hle, Nat.lt_of_lt_of_le hcn hle⟩] at hback
  have hforth := hyrow row hrow i (Nat.lt_of_lt_of_le hi hle) c (Nat.lt_of_lt_of_le hcn hle)
  rw [if_pos ⟨hi, hcn⟩] at hforth
  exact hback.trans hforth

/-- The components of a vector, one register for each. -/
theorem exists_swizzles (hc : s.chain.Closed) (ht : x.type.isVector = true)
    (hu : x.type.scalar? = some u) (hx : x.Spans s.chain.rows) :
    ∃ parts, (List.range x.type.components).mapM
        (fun i => s.swizzle x [UInt8.ofNat i] u) = .ok parts ∧
      parts.length = x.type.components ∧
      ∀ (j : Nat) (p : Register), parts[j]? = some p → p.Spans s.chain.rows ∧
        p.type.components = 1 ∧
        ∀ row ∈ s.chain.visited, p.component? 0 row = x.component? j row := by
  obtain ⟨hone, hkind, hbyte, -⟩ := ShaderType.components_of_scalar? ht hu
  obtain ⟨parts, hparts, hlength, hget⟩ := Outcome.exists_mapM
    (l := List.range x.type.components) (f := fun i => s.swizzle x [UInt8.ofNat i] u)
    fun i hi => exists_swizzle hc hx hone.symm hkind fun j hj => by
      have hi := List.mem_range.1 hi
      rwa [List.mem_singleton.1 hj, UInt8.toNat_ofNat_of_lt' (Nat.lt_trans hi hbyte)]
  rw [List.length_range] at hlength
  refine ⟨parts, hparts, hlength, fun j p hp => ?_⟩
  have hj : j < x.type.components := hlength ▸ (List.getElem?_eq_some_iff.1 hp).1
  have hswizzle := hget j j p (by rw [List.getElem?_range hj]) hp
  have hkept := kept_swizzle hc hswizzle
  refine ⟨(spans_blank u).kept hkept, by rw [hkept.type_eq]; exact hone, fun row hrow => ?_⟩
  rw [swizzle_component hc hrow hx.1 hswizzle rfl,
    UInt8.toNat_ofNat_of_lt' (Nat.lt_trans hj hbyte)]

/-- A vector can be put together from its components. -/
theorem exists_construct_swizzles (hc : s.chain.Closed) (hk : t.kind? = some k)
    (ht : t.isVector = true) (hu : t.scalar? = some u) (hxt : x.type = t)
    (hx : x.Spans s.chain.rows) :
    ∃ parts out, (List.range t.components).mapM
        (fun i => s.swizzle x [UInt8.ofNat i] u) = .ok parts ∧
      s.construct t parts = .ok out ∧ s.LiveOnly t k out ∧
      ∀ row ∈ s.chain.visited, out.atRow row = x.atRow row := by
  subst hxt
  obtain ⟨-, -, -, hmany⟩ := ShaderType.components_of_scalar? ht hu
  obtain ⟨parts, hparts, hlength, hpart⟩ := exists_swizzles hc ht hu hx
  have hmem : ∀ p ∈ parts, p.Spans s.chain.rows ∧ p.type.components = 1 := fun p hp => by
    obtain ⟨j, hj⟩ := List.mem_iff_getElem?.1 hp
    exact ⟨(hpart j p hj).1, (hpart j p hj).2.1⟩
  have hsupply : supply parts = x.type.components :=
    (supply_of_scalars fun p hp => (hmem p hp).2).trans hlength
  obtain ⟨out, hout, hlive, hrule⟩ := exists_fromComponents hc hk (fun p hp => (hmem p hp).1)
    (Nat.le_of_eq hsupply.symm)
  refine ⟨parts, out, hparts, ?_, hlive, fun row hrow => ?_⟩
  · match parts, hlength with
    | _ :: _ :: _, _ => exact hout
    | [], h | [_], h =>
      rw [← h] at hmany
      exact absurd hmany (by simp)
  · refine Register.atRow_eq_of_component hx.1 hlive.spans.1 hlive.type_eq fun j hj => ?_
    have hlt : row < s.chain.rows := LiveChain.lt_rows_of_mem_visited hrow
    obtain ⟨e, he, hcomponent⟩ := hrule row hrow j hj
    have hj' : j < parts.length := hlength ▸ hj
    obtain ⟨-, -, hsame⟩ := hpart j parts[j] (List.getElem?_eq_getElem hj')
    rw [getElem?_flatMap_singletons fun p hp =>
      (hmem p hp).1.rowComponents_of_one (hmem p hp).2 hlt, List.getElem?_eq_getElem hj',
      Option.bind_some, hsame row hrow] at he
    rw [hcomponent, he]
    exact congrArg some (Scalar.convert_of_kind (hx.1.kind_component hk he))

end Inverses

/-! ## The rules -/

/-- Constructors follow the rules on every live row, whatever the arguments are and whatever the
policy is, and leave zero on the other rows. They fail if the arguments are taken component by
component and are too few, and for no other reason, unless the chain leads out of the batch. So a
matrix that is made larger and cut back is what it was, and so is a vector that is put together
from its components. -/
theorem constructors_follow_rules (s : Sweep) {t : ShaderType} {k : Kind}
    (hk : t.kind? = some k) :
    (∀ args : List Register, (∀ x ∈ args, x.Spans s.chain.rows) →
      (TooFew t args →
        s.construct t args = Outcome.mismatch (.tooFewComponents t (supply args))) ∧
      (¬TooFew t args → s.chain.Closed → ∃ out, s.construct t args = .ok out ∧
        s.LiveOnly t k out ∧ ∀ row ∈ s.chain.visited, Rule t k args out row) ∧
      (¬TooFew t args → ¬s.chain.Closed → s.construct t args = .error .outOfRange)) ∧
    (s.chain.Closed → ∀ x : Register, x.type = t → x.Spans s.chain.rows →
      (t.isMatrix = true → ∀ u : ShaderType, u.isMatrix = true → t.dimension ≤ u.dimension →
        ∃ y out, s.construct u [x] = .ok y ∧ s.construct t [y] = .ok out ∧
          ∀ row ∈ s.chain.visited, ∃ v, x.rowValue? row = some v ∧ out.rowValue? row = some v) ∧
      (t.isVector = true → ∀ u, t.scalar? = some u →
        ∃ parts out, (List.range t.components).mapM
            (fun i => s.swizzle x [UInt8.ofNat i] u) = .ok parts ∧
          s.construct t parts = .ok out ∧
          ∀ row ∈ s.chain.visited, ∃ v, x.rowValue? row = some v ∧
            out.rowValue? row = some v)) := by
  refine ⟨fun args hargs => ⟨construct_tooFew fun x hx => (hargs x hx).1,
    fun h hc => exists_construct hc hk hargs h,
    fun h hc => construct_stray hc hk (fun x hx => (hargs x hx).1) h⟩, fun hc x hxt hx => ?_⟩
  -- registers that agree at a row hold the same value there
  have hvalue : ∀ {out : Register} {row : Nat}, out.Spans s.chain.rows → row ∈ s.chain.visited →
      out.atRow row = x.atRow row →
      ∃ v, x.rowValue? row = some v ∧ out.rowValue? row = some v := by
    intro out row hout hrow hsame
    have hlt := LiveChain.lt_rows_of_mem_visited hrow
    obtain ⟨v, hv⟩ := Interpreter.exists_rowValue hx.1
      (Nat.ne_of_gt (Builtin.components_pos (hxt ▸ hk))) (hx.2.symm ▸ hlt)
    refine ⟨v, hv, ?_⟩
    rw [← out.rowValue?_atRow (hout.2.symm ▸ hlt), hsame, x.rowValue?_atRow (hx.2.symm ▸ hlt), hv]
  constructor
  · intro htm u hum hle
    obtain ⟨y, out, hy, hout, hlive, hrows⟩ := exists_construct_back hc htm hum hle hxt hx
    exact ⟨y, out, hy, hout, fun row hrow => hvalue hlive.spans hrow (hrows row hrow)⟩
  · intro ht u hu
    obtain ⟨parts, out, hparts, hout, hlive, hrows⟩ := exists_construct_swizzles hc hk ht hu hxt hx
    exact ⟨parts, out, hparts, hout, fun row hrow => hvalue hlive.spans hrow (hrows row hrow)⟩

/-- Row 0 of three is not live. -/
theorem constructors_follow_rules_mat3 :
    let s : Sweep := ⟨.build 3 [1, 2], .wide8⟩
    let ones : Lane := ⟨.float, #[.one, .one, .one]⟩
    let zeros : Lane := ⟨.float, #[.zero, .zero, .zero]⟩
    let m : Register := ⟨.mat2, 3, [zeros, ones, ones, zeros]⟩
    s.chain.visited = [1, 2] ∧
      (∃ out, s.construct .mat3 [m] = .ok out ∧
        out.component? 0 2 = some (.float .zero) ∧ out.component? 1 2 = some (.float .one) ∧
        out.component? 2 2 = some (.float .zero) ∧ out.component? 8 2 = some (.float .one) ∧
        out.component? 8 0 = some (.float .zero)) ∧
      s.construct .vec4 [.zeroed .vec2 3] =
        Outcome.mismatch (.tooFewComponents .vec4 2) := by
  intro s ones zeros m
  have hvisited : s.chain.visited = [1, 2] := by decide +kernel
  have hc : s.chain.Closed :=
    (LiveChain.canonical_build ⟨by decide, by decide, by decide⟩ : s.chain.Canonical).closed
  have hm : ∀ x ∈ [m], x.Spans s.chain.rows := fun x hx => by
    rw [List.mem_singleton.1 hx]
    exact ⟨⟨rfl, by simp [m, ones, zeros]; rfl, by simp [m, ones, zeros, Lane.rows]⟩, rfl⟩
  have hv : ∀ x ∈ [Register.zeroed .vec2 3], x.Spans s.chain.rows := fun x hx => by
    rw [List.mem_singleton.1 hx]
    exact Register.spans_zeroed .vec2 3
  refine ⟨hvisited, ?_, ?_⟩
  · obtain ⟨-, hrule, -⟩ := (constructors_follow_rules s (t := .mat3) rfl).1 [m] hm
    obtain ⟨out, hout, hlive, hrow⟩ := hrule (fun h => absurd h.2.1 (by decide)) hc
    have hplace : FromMatrix .mat3 m out 2 := hrow 2 (by rw [hvisited]; decide)
    exact ⟨out, hout, hplace 0 (by decide) 0 (by decide), hplace 1 (by decide) 0 (by decide),
      hplace 2 (by decide) 0 (by decide), hplace 2 (by decide) 2 (by decide),
      hlive.zero 8 (by decide) 0 (by decide) (by rw [hvisited]; decide)⟩
  · exact ((constructors_follow_rules s (t := .vec4) rfl).1 _ hv).1 ⟨rfl, rfl, by decide⟩

end Sweep

end BatchShader
