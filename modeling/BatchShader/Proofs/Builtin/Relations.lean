import BatchShader.Proofs.Builtin.Names
import BatchShader.Proofs.Builtin.Standard
import BatchShader.Proofs.LaneLoop

/-
  The relations `equal` and `notEqual` of vectors, and `any` and `all` of truth values.

  A comparison leaves at each live row the truth value of each component pair (`exists_compare`),
  and `reduce` joins the components of a row from the first to the last (`exists_reduce`). Under
  each of the four names, and for vectors of each kind and size, the standard registry finds just
  these (`exists_lookup_relation`, `exists_lookup_quantifier`).
-/

namespace BatchShader.Builtin

/-- Components that are read one after the other and joined. -/
theorem foldlM_reads {α β : Type} {op : β → α → β} {read : Nat → Outcome α} {a : Nat → α}
    {l : List Nat} (h : ∀ i ∈ l, read i = .ok (a i)) {first : β} :
    l.foldlM (fun acc i => return op acc (← read i)) first =
      (.ok (l.foldl (fun acc i => op acc (a i)) first) : Outcome β) := by
  induction l generalizing first with
  | nil => rfl
  | cons i l ih =>
    rw [List.forall_mem_cons] at h
    rw [List.foldlM_cons, h.1, Outcome.ok_bind, pure_bind, ih h.2, List.foldl_cons]

section Execution

variable {k : Kind} {s : Signature} {inv : Invocation} {x y out : Register}

/-- What a function of two components computes where both operands have that component. -/
theorem componentStep_pair {f : ElemFun .bool [k, k]} {r i : Nat} {a b : k.Elem} (old : Bool)
    (hx : sourceIndex i x.type.components = i) (hy : sourceIndex i y.type.components = i)
    (ha : x.readRow k i r = .ok a) (hb : y.readRow k i r = .ok b) :
    componentStep f [x, y] i r old = .ok (f a b) := by
  obtain ⟨xs, hxs, ha⟩ := Outcome.bind_eq_ok.1 ha
  obtain ⟨ys, hys, hb⟩ := Outcome.bind_eq_ok.1 hb
  have hcolumns : columnsOf (sourceLane · · i) [k, k] [x, y] = .ok (xs, ys, ()) := by
    simp only [columnsOf, sourceLane, hx, hy, hxs, hys, Outcome.ok_bind]
    rfl
  calc componentStep f [x, y] i r old
      = (rowOf xs r >>= fun a => rowOf ys r >>= fun b => .ok (f a b) : Outcome Bool) := by
        rw [componentStep, hcolumns]
        rfl
    _ = .ok (f a b) := by rw [ha, Outcome.ok_bind, hb, Outcome.ok_bind]

/-- A comparison of two vectors compares their components one by one at each live row. -/
theorem exists_compare {f : k.Elem → k.Elem → Bool} (hs : ComponentwiseFits [k, k] .bool s)
    (hc : inv.chain.Closed) (hfits : Fits s inv.chain.rows [x, y] out)
    (hsize : 1 < s.result.components) (hx : x.type.components = s.result.components)
    (hy : y.type.components = s.result.components) :
    ∃ new, (execute ⟨s, compare k f s⟩ inv [x, y]).run out = .ok () new ∧
      Register.Kept inv.chain out new ∧ ∀ r ∈ inv.chain.visited, ∀ a b, x.HoldsRow k r a →
        y.HoldsRow k r b → new.HoldsRow .bool r fun i => f (a i) (b i) := by
  have hlen : [x, y].length = s.params.length := by rw [← hfits.params, List.length_map]
  obtain ⟨new, hrun, hwritten⟩ :=
    @exists_componentwise_written .bool [k, k] f s [x, y] hs inv out hc hfits
  refine ⟨new, ?_, hwritten.kept, fun r hr a b ha hb i hi => ?_⟩
  · refine (execute_of_check_ok rfl hfits.checkCall).trans ?_
    refine Stateful.run_bind_eq_ok.2 ⟨(), out, ?_, hrun⟩
    exact Stateful.run_ofExcept_eq_ok.2 ⟨hs.checkArity hlen, rfl⟩
  · have hi' : i < s.result.components := by rwa [hwritten.type_eq, hfits.result] at hi
    obtain ⟨old, lane, -, hlane, hwrote⟩ := hwritten.lane i
      (by rwa [hfits.out_wellFormed.length_lanes, hfits.result])
    obtain ⟨before, after, -, hafter, hget⟩ := hwrote.live r hr
    have hstep := @componentStep_pair k x y f r i (a i) (b i) before
      (if_neg (by omega)) (if_neg (by omega))
      (Register.readRow_of_component (ha i (by omega)))
      (Register.readRow_of_component (hb i (by omega)))
    obtain rfl : f (a i) (b i) = after := Except.ok.inj (hstep.symm.trans hafter)
    rw [Register.component?_of_lane hlane, hget]
    rfl

/-- `reduce` joins the components of each live row, from the first to the last. -/
theorem exists_reduce {op : k.Elem → k.Elem → k.Elem} (hs : ReduceFits k s)
    (hc : inv.chain.Closed) (hfits : Fits s inv.chain.rows [x] out) :
    ∃ new, (execute ⟨s, reduce op s⟩ inv [x]).run out = .ok () new ∧
      Register.Kept inv.chain out new ∧ ∀ r ∈ inv.chain.visited, ∀ a, x.HoldsRow k r a →
        new.component? 0 r = some ⟨k, (List.range' 1 (x.type.components - 1)).foldl
          (fun acc i => op acc (a i)) (a 0)⟩ := by
  have hk : x.type.kind? = some k := by
    have hparams := hs.1
    rw [← hfits.params] at hparams
    simpa using hparams
  obtain ⟨old, new, hold, hrun, hwrote⟩ := exists_reduce_run op hs hc hfits
  refine ⟨out.setLane 0 ⟨k, new⟩, hrun, Register.kept_setLane_of_wrote hold hwrote,
    fun r hr a ha => ?_⟩
  obtain ⟨before, after, -, hafter, hget⟩ := hwrote.live r hr
  have hread : ∀ i ∈ List.range' 1 (x.type.components - 1), x.readRow k i r = .ok (a i) := by
    intro i hi
    rw [List.mem_range'_1] at hi
    exact Register.readRow_of_component (ha i (by omega))
  rw [reduceStep, Register.readRow_of_component (ha 0 (components_pos hk)), Outcome.ok_bind,
    foldlM_reads hread, Except.ok.injEq] at hafter
  rw [Register.component?_of_lane (Register.lane_setLane_self hold), hget, ← hafter]
  rfl

end Execution

/-! ## The catalogue -/

/-- The placeholder for vectors of a kind. -/
def vectorFamily : Kind → Family
  | .float => .vec
  | .int => .ivec
  | .bool => .bvec

/-- A relation of two vectors of a kind. -/
def relation (name : String) (k : Kind) : Declaration :=
  ⟨.placeholder .bvec, name, [.placeholder (vectorFamily k), .placeholder (vectorFamily k)]⟩

/-- A truth value from a vector of them. -/
def quantifier (name : String) : Declaration := ⟨.concrete .bool, name, [.placeholder .bvec]⟩

section Catalogue

variable {name : String} {k : Kind} {t mask : ShaderType} {s : Signature}

theorem mem_expand_relation :
    s ∈ (relation name k).expand ↔ ∃ n ∈ [2, 3, 4], ∃ t mask, ShaderType.vector? k n = some t ∧
      ShaderType.vector? .bool n = some mask ∧ s = ⟨mask, name, [t, t]⟩ := by
  have hexpand : (relation name k).expand = [2, 3, 4].filterMap fun n =>
      (ShaderType.vector? k n).bind fun t =>
        (ShaderType.vector? .bool n).map fun mask => ⟨mask, name, [t, t]⟩ := by
    cases k <;> rfl
  rw [hexpand]
  simp only [List.mem_filterMap, Option.bind_eq_some_iff, Option.map_eq_some_iff]
  constructor
  · rintro ⟨n, hn, t, ht, mask, hmask, rfl⟩
    exact ⟨n, hn, t, mask, ht, hmask, rfl⟩
  · rintro ⟨n, hn, t, mask, ht, hmask, rfl⟩
    exact ⟨n, hn, t, ht, mask, hmask, rfl⟩

theorem mem_expand_quantifier :
    s ∈ (quantifier name).expand ↔ ∃ n ∈ [2, 3, 4], ∃ mask,
      ShaderType.vector? .bool n = some mask ∧ s = ⟨.bool, name, [mask]⟩ := by
  have hexpand : (quantifier name).expand = [2, 3, 4].filterMap fun n =>
      (ShaderType.vector? .bool n).map fun mask => ⟨.bool, name, [mask]⟩ := rfl
  simp only [hexpand, List.mem_filterMap, Option.map_eq_some_iff, eq_comm (a := s)]

/-- A vector type is known from its kind and its size. -/
theorem vector?_of_isVector (ht : t.isVector = true) (hk : t.kind? = some k) :
    t.components ∈ [2, 3, 4] ∧ ShaderType.vector? k t.components = some t := by
  cases t <;> first | (cases hk; exact ⟨by decide, rfl⟩) | cases ht

theorem of_vector? {n : Nat} (h : ShaderType.vector? k n = some t) :
    t.kind? = some k ∧ t.components = n := by
  unfold ShaderType.vector? at h
  split at h <;> cases h <;> exact ⟨rfl, rfl⟩

/-- The lines of a name that declare a relation, one for each kind. -/
structure IsRelation (name : String) (op : (k : Kind) → k.Elem → k.Elem → Bool) : Prop where
  line : ∀ line ∈ linesOf name, ∃ k, Declaration.parse line.1 = .ok (relation name k) ∧
    line.2 = compare k (op k)
  kind : ∀ k, ∃ line ∈ linesOf name, Declaration.parse line.1 = .ok (relation name k)

theorem isRelation_of_lines {op : (k : Kind) → k.Elem → k.Elem → Bool} {float int bool : String}
    (hlines : linesOf name =
      [(float, compare .float (op .float)), (int, compare .int (op .int)),
        (bool, compare .bool (op .bool))])
    (hfloat : Declaration.parse float = .ok (relation name .float))
    (hint : Declaration.parse int = .ok (relation name .int))
    (hbool : Declaration.parse bool = .ok (relation name .bool)) : IsRelation name op where
  line := by
    rw [hlines, List.forall_mem_cons, List.forall_mem_cons, List.forall_mem_singleton]
    exact ⟨⟨.float, hfloat, rfl⟩, ⟨.int, hint, rfl⟩, ⟨.bool, hbool, rfl⟩⟩
  kind k := by
    rw [hlines]
    cases k with
    | float => exact ⟨_, .head _, hfloat⟩
    | int => exact ⟨_, .tail _ (.head _), hint⟩
    | bool => exact ⟨_, .tail _ (.tail _ (.head _)), hbool⟩

theorem isRelation_equal : IsRelation "equal" Kind.equal :=
  isRelation_of_lines rfl (by decide +kernel) (by decide +kernel) (by decide +kernel)

theorem isRelation_notEqual : IsRelation "notEqual" fun k x y => !k.equal x y :=
  isRelation_of_lines rfl (by decide +kernel) (by decide +kernel) (by decide +kernel)

/-- A relation is found for vectors of each kind and size. -/
theorem exists_lookup_relation {registry : Registry Implementation}
    (h : standard = .ok registry) {op : (k : Kind) → k.Elem → k.Elem → Bool}
    (hname : IsRelation name op) (ht : t.isVector = true) (hk : t.kind? = some k)
    (hmask : ShaderType.vector? .bool t.components = some mask) :
    registry.lookup name [t, t] =
      .ok ⟨⟨mask, name, [t, t]⟩, compare k (op k) ⟨mask, name, [t, t]⟩⟩ := by
  obtain ⟨hsize, hvector⟩ := vector?_of_isVector ht hk
  obtain ⟨line, hline, hparse⟩ := hname.kind k
  obtain ⟨b, hlookup, hparams, line', hline', d, hd, hs, hbody⟩ :=
    exists_lookup_of_line h hline hparse rfl
      (mem_expand_relation.2 ⟨_, hsize, t, mask, hvector, hmask, rfl⟩)
  obtain ⟨k', hparse', hcompare⟩ := hname.line line' hline'
  obtain rfl : d = relation name k' := Except.ok.inj (hd.symm.trans hparse')
  obtain ⟨n, -, t', mask', ht', hmask', hsignature⟩ := mem_expand_relation.1 hs
  obtain ⟨signature, body⟩ := b
  dsimp only at hparams hsignature hbody
  subst hsignature
  cases hparams
  obtain ⟨hk', rfl⟩ := of_vector? ht'
  obtain rfl : k' = k := Option.some.inj (hk'.symm.trans hk)
  obtain rfl : mask' = mask := Option.some.inj (hmask'.symm.trans hmask)
  rw [hlookup, hbody, hcompare]

/-- A quantifier is found for truth values of each size. -/
theorem exists_lookup_quantifier {registry : Registry Implementation}
    (h : standard = .ok registry) {text : String} {op : Bool → Bool → Bool}
    (hline : linesOf name = [(text, reduce (k := .bool) op)])
    (hparse : Declaration.parse text = .ok (quantifier name)) {n : Nat} (hn : n ∈ [2, 3, 4])
    (hmask : ShaderType.vector? .bool n = some mask) :
    registry.lookup name [mask] =
      .ok ⟨⟨.bool, name, [mask]⟩, reduce (k := .bool) op ⟨.bool, name, [mask]⟩⟩ := by
  have hmem : (text, reduce (k := .bool) op) ∈ linesOf name := by
    rw [hline]
    exact List.mem_singleton_self _
  obtain ⟨b, hlookup, hparams, line', hline', d, hd, hs, hbody⟩ :=
    exists_lookup_of_line h hmem hparse rfl
      (mem_expand_quantifier.2 ⟨n, hn, mask, hmask, rfl⟩)
  rw [hline] at hline'
  obtain rfl := List.mem_singleton.1 hline'
  obtain rfl : d = quantifier name := Except.ok.inj (hd.symm.trans hparse)
  obtain ⟨n', -, mask', hmask', hsignature⟩ := mem_expand_quantifier.1 hs
  obtain ⟨signature, body⟩ := b
  dsimp only at hparams hsignature hbody
  subst hsignature
  cases hparams
  rw [hlookup, hbody]

theorem lookup_all {registry : Registry Implementation} (h : standard = .ok registry) {n : Nat}
    (hn : n ∈ [2, 3, 4]) (hmask : ShaderType.vector? .bool n = some mask) :
    registry.lookup "all" [mask] =
      .ok ⟨⟨.bool, "all", [mask]⟩,
        reduce (k := .bool) (· && · : Bool → Bool → Bool) ⟨.bool, "all", [mask]⟩⟩ :=
  exists_lookup_quantifier h rfl (by decide +kernel) hn hmask

theorem lookup_any {registry : Registry Implementation} (h : standard = .ok registry) {n : Nat}
    (hn : n ∈ [2, 3, 4]) (hmask : ShaderType.vector? .bool n = some mask) :
    registry.lookup "any" [mask] =
      .ok ⟨⟨.bool, "any", [mask]⟩,
        reduce (k := .bool) (· || · : Bool → Bool → Bool) ⟨.bool, "any", [mask]⟩⟩ :=
  exists_lookup_quantifier h rfl (by decide +kernel) hn hmask

end Catalogue

end BatchShader.Builtin
