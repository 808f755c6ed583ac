import BatchShader.Proofs.Row

/-
  Results written lane by lane.

  `Register.Holds x k r es`: row `r` of the register `x` is the list of components `es`, all of
  kind `k`. `Register.Written c k step x y`: from `x` to `y` each lane `i` was changed by `step i`,
  once at each row that `c` visits. The loops of the builtins are brought into this form, and what
  it says about rows (`Written.kept`, `Written.holds`) is all that is used of them.
-/

namespace BatchShader

/-! ## Sweeps one after the other -/

namespace RowStep

variable {β : Type} {s t : RowStep β} {rows : List Nat} {a b c : Array β}

theorem Wrote.comp (hs : s.Wrote rows a b) (ht : t.Wrote rows b c) :
    RowStep.Wrote (fun r x => s r x >>= t r) rows a c where
  size_eq := ht.size_eq.trans hs.size_eq
  live r hr := by
    obtain ⟨x, y, hx, hy, hb⟩ := hs.live r hr
    obtain ⟨y', z, hy', hz, hc⟩ := ht.live r hr
    obtain rfl : y = y' := Option.some.inj (hb.symm.trans hy')
    exact ⟨x, z, hx, Outcome.bind_eq_ok.2 ⟨y, hy, hz⟩, hc⟩
  dead r hr := (ht.dead r hr).trans (hs.dead r hr)

theorem Wrote.congr (hs : s.Wrote rows a b) (h : ∀ r ∈ rows, ∀ x, s r x = t r x) :
    t.Wrote rows a b where
  size_eq := hs.size_eq
  live r hr := by
    obtain ⟨x, y, hx, hy, hb⟩ := hs.live r hr
    exact ⟨x, y, hx, by rw [← h r hr, hy], hb⟩
  dead := hs.dead

/-- Sweeps one after the other take their steps one after the other at each row. -/
theorem exists_foldlM_wrote {ι : Type} {l : List ι} (f : Array β → ι → Outcome (Array β))
    (step : ι → RowStep β) {n : Nat}
    (hf : ∀ i ∈ l, ∀ a : Array β, a.size = n → ∃ b, f a i = .ok b ∧ (step i).Wrote rows a b)
    (ha : a.size = n) (hrows : ∀ r ∈ rows, r < n) :
    ∃ b, l.foldlM f a = .ok b ∧
      RowStep.Wrote (fun r x => l.foldlM (fun x i => step i r x) x) rows a b := by
  induction l generalizing a with
  | nil =>
    refine ⟨a, rfl, rfl, fun r hr => ?_, fun _ _ => rfl⟩
    have hlt : r < a.size := ha ▸ hrows r hr
    have hx := Array.getElem?_eq_getElem hlt
    exact ⟨_, _, hx, rfl, hx⟩
  | cons i l ih =>
    obtain ⟨b, hb, hstep⟩ := hf i List.mem_cons_self a ha
    obtain ⟨c, hc, hrest⟩ := ih (fun j hj => hf j (List.mem_cons_of_mem i hj))
      (hstep.size_eq.trans ha)
    refine ⟨c, ?_, ?_⟩
    · rw [List.foldlM_cons, hb, Outcome.ok_bind, hc]
    · simpa only [List.foldlM_cons] using hstep.comp hrest

end RowStep

theorem Sweep.exists_wrote {β : Type} {s : Sweep} (hc : s.chain.Closed) (step : RowStep β)
    {old : Array β} (hold : old.size = s.chain.rows)
    (h : ∀ r ∈ s.chain.visited, ∀ x, ∃ y, step r x = .ok y) :
    ∃ new, s.apply step old = .ok new ∧ step.Wrote s.chain.visited old new := by
  refine exists_apply_eq_ok hc fun r hr => ?_
  obtain ⟨x, hx⟩ := LiveChain.exists_getElem?_of_mem_visited hold hr
  obtain ⟨y, hy⟩ := h r hr x
  exact ⟨x, y, hx, hy⟩

namespace Register

/-! ## Rows as lists of components -/

/-- Row `r` of the register consists of the components `es` of kind `k`. -/
structure Holds (x : Register) (k : Kind) (r : Nat) (es : List k.Elem) : Prop where
  length_eq : es.length = x.lanes.length
  lane : ∀ (i : Nat) (e : k.Elem), es[i]? = some e →
    ∃ column, x.lane k i = .ok column ∧ column[r]? = some e

variable {x y : Register} {k : Kind} {r : Nat} {es : List k.Elem}

/-- A row has one list of components. -/
theorem Holds.unique {es' : List k.Elem} (h : x.Holds k r es) (h' : x.Holds k r es') :
    es = es' := by
  refine List.ext_getElem (h.length_eq.trans h'.length_eq.symm) fun i hi hi' => ?_
  obtain ⟨column, hcolumn, he⟩ := h.lane i es[i] (List.getElem?_eq_getElem hi)
  obtain ⟨column', hcolumn', he'⟩ := h'.lane i es'[i] (List.getElem?_eq_getElem hi')
  obtain rfl := Except.ok.inj (hcolumn.symm.trans hcolumn')
  exact Option.some.inj (he.symm.trans he')

theorem WellFormed.exists_lane (h : x.WellFormed) (hk : x.type.kind? = some k) {i : Nat}
    (hi : i < x.type.components) : ∃ column, x.lane k i = .ok column ∧ column.size = x.rows := by
  rw [← h.length_lanes] at hi
  have hmem : x.lanes[i] ∈ x.lanes := List.getElem_mem hi
  have hkind := h.kind_lane _ hmem
  have hrows := h.rows_lane _ hmem
  cases hl : x.lanes[i] with
  | mk k' column =>
    rw [hl] at hkind hrows
    rw [hk, Option.some.injEq] at hkind
    subst hkind
    refine ⟨column, lane_eq_ok.2 ?_, hrows⟩
    rw [List.getElem?_eq_getElem hi, hl]

/-- Each row of a well-formed register consists of as many components as its type has. -/
theorem WellFormed.exists_holds (h : x.WellFormed) (hk : x.type.kind? = some k)
    (hr : r < x.rows) : ∃ es, x.Holds k r es ∧ es.length = x.type.components := by
  refine ⟨(List.range x.type.components).map fun i =>
    ((x.lane k i).toOption.bind (·[r]?)).getD k.zero, ⟨by simp [h.length_lanes], ?_⟩, by simp⟩
  intro i e he
  rw [List.getElem?_map, Option.map_eq_some_iff] at he
  obtain ⟨j, hj, he⟩ := he
  obtain ⟨hi, hj⟩ := List.getElem?_eq_some_iff.1 hj
  rw [List.getElem_range] at hj
  rw [List.length_range] at hi
  subst hj
  obtain ⟨column, hcolumn, hsize⟩ := h.exists_lane hk hi
  have hlt : r < column.size := hsize ▸ hr
  have hget := Array.getElem?_eq_getElem hlt
  refine ⟨column, hcolumn, ?_⟩
  rw [hget, ← he, hcolumn]
  exact congrArg some (by rw [Except.toOption, Option.bind_some, hget]; rfl)

theorem mapM_eq_some_of_getElem? {α β : Type} {f : α → Option β} {l : List α} {l' : List β}
    (hlen : l'.length = l.length)
    (h : ∀ (i : Nat) (a : α) (b : β), l[i]? = some a → l'[i]? = some b → f a = some b) :
    l.mapM f = some l' := by
  induction l generalizing l' with
  | nil =>
    rw [List.length_eq_zero_iff.1 hlen]
    rfl
  | cons a l ih =>
    cases l' with
    | nil => cases hlen
    | cons b l' =>
      rw [List.mapM_cons, h 0 a b rfl rfl,
        ih (Nat.succ.inj hlen) fun i a' b' ha hb => h (i + 1) a' b' ha hb]
      rfl

/-- The value of a row is made of its components. -/
theorem Holds.rowValue? (h : x.Holds k r es) (hk : x.type.kind? = some k) (hr : r < x.rows) :
    x.rowValue? r = Value.new? x.type ⟨k, es⟩ := by
  have helems : (x.lanes.mapM fun l => (l.as? k).bind (·[r]?)) = some es := by
    refine mapM_eq_some_of_getElem? h.length_eq fun i l e hl he => ?_
    obtain ⟨column, hcolumn, hcr⟩ := h.lane i e he
    rw [lane_eq_ok, hl, Option.some.injEq] at hcolumn
    rw [hcolumn, Lane.as?_self ⟨k, column⟩]
    exact hcr
  rw [Register.rowValue?, if_pos hr, hk]
  exact congrArg (Option.bind · fun es => Value.new? x.type ⟨k, es⟩) helems

theorem type_of_rowValue? {v : Value} (h : x.rowValue? r = some v) : v.type = x.type := by
  unfold Register.rowValue? at h
  split at h
  · obtain ⟨k, -, h⟩ := Option.bind_eq_some_iff.1 h
    obtain ⟨es, -, h⟩ := Option.bind_eq_some_iff.1 h
    exact (Value.type_of_new? h).1
  · cases h

/-! ## Writing -/

theorem run_modify {i : Nat} {f : Array k.Elem → Outcome (Array k.Elem)} {old new : Array k.Elem}
    (hx : x.lane k i = .ok old) (hf : f old = .ok new) :
    (modify k i f).run x = .ok () (x.setLane i ⟨k, new⟩) := by
  refine Stateful.run_bind_eq_ok.2 ⟨x, x, rfl, Stateful.run_bind_eq_ok.2 ⟨_, x, ?_, rfl⟩⟩
  refine Stateful.run_ofExcept_eq_ok.2 ⟨?_, rfl⟩
  rw [modifyLane, hx, Outcome.ok_bind, hf]
  rfl

theorem lane_setLane_self {i : Nat} {old new : Array k.Elem} (hx : x.lane k i = .ok old) :
    (x.setLane i ⟨k, new⟩).lane k i = .ok new := by
  rw [lane_eq_ok] at hx ⊢
  exact List.getElem?_set_self (List.getElem?_eq_some_iff.1 hx).1

theorem setLane_setLane (x : Register) (i : Nat) (l l' : Lane) :
    (x.setLane i l).setLane i l' = x.setLane i l' := by
  simp only [setLane, List.set_set]

theorem setLane_self {i : Nat} {l : Lane} (h : x.lanes[i]? = some l) : x.setLane i l = x := by
  obtain ⟨hi, rfl⟩ := List.getElem?_eq_some_iff.1 h
  simp only [setLane, List.set_getElem_self]

/-- Changes of one lane, one after the other, are one change of it. -/
theorem run_forM_modify {ι : Type} {l : List ι} {i : Nat}
    {f : ι → Array k.Elem → Outcome (Array k.Elem)} {old new : Array k.Elem}
    (hx : x.lane k i = .ok old) (hf : l.foldlM (fun a j => f j a) old = .ok new) :
    (l.forM fun j => modify k i (f j)).run x = .ok () (x.setLane i ⟨k, new⟩) := by
  induction l generalizing x old with
  | nil =>
    rw [← Except.ok.inj hf, setLane_self (lane_eq_ok.1 hx)]
    rfl
  | cons j l ih =>
    rw [List.foldlM_cons] at hf
    obtain ⟨mid, hmid, hf⟩ := Outcome.bind_eq_ok.1 hf
    refine Stateful.run_bind_eq_ok.2 ⟨(), _, run_modify hx hmid, ?_⟩
    have := ih (lane_setLane_self hx) hf
    rwa [setLane_setLane] at this

/-! ## Results by lane -/

/-- Each lane was changed by its step, once at each row that the chain visits. -/
structure Written (c : LiveChain) (k : Kind) (step : Nat → RowStep k.Elem) (x y : Register) :
    Prop where
  type_eq : y.type = x.type
  rows_eq : y.rows = x.rows
  length_eq : y.lanes.length = x.lanes.length
  lane : ∀ i < x.lanes.length, ∃ old new, x.lane k i = .ok old ∧ y.lane k i = .ok new ∧
    (step i).Wrote c.visited old new

/-- A loop that changes each lane once. -/
theorem exists_forM_written {c : LiveChain} (step : Nat → RowStep k.Elem)
    (action : Nat → Writer Unit) (hx : x.WellFormed) (hk : x.type.kind? = some k)
    (h : ∀ i < x.type.components, ∀ (z : Register) (old : Array k.Elem), z.lane k i = .ok old →
      old.size = x.rows → ∃ new, (action i).run z = .ok () (z.setLane i ⟨k, new⟩) ∧
        (step i).Wrote c.visited old new) :
    ∃ y, ((List.range x.type.components).forM action).run x = .ok () y ∧
      Written c k step x y := by
  -- after `n` steps the first `n` lanes are done, and the others are as they were
  have hprefix : ∀ n ≤ x.type.components, ∃ y, ((List.range n).forM action).run x = .ok () y ∧
      y.type = x.type ∧ y.rows = x.rows ∧ y.lanes.length = x.lanes.length ∧
      (∀ i < n, ∃ old new, x.lane k i = .ok old ∧ y.lane k i = .ok new ∧
        (step i).Wrote c.visited old new) ∧
      ∀ i, n ≤ i → y.lanes[i]? = x.lanes[i]? := by
    intro n hn
    induction n with
    | zero => exact ⟨x, rfl, rfl, rfl, rfl, fun i hi => (nomatch hi), fun _ _ => rfl⟩
    | succ n ih =>
      obtain ⟨y, hrun, ht, hr, hl, hdone, hleft⟩ := ih (by omega)
      obtain ⟨old, hold, hsize⟩ := hx.exists_lane hk (i := n) (by omega)
      have hy : y.lane k n = .ok old := by
        rw [lane_eq_ok, hleft n (Nat.le_refl n)]
        exact lane_eq_ok.1 hold
      obtain ⟨new, hnew, hstep⟩ := h n (by omega) y old hy hsize
      refine ⟨y.setLane n ⟨k, new⟩, ?_, ht, hr, by simp [setLane, hl], ?_, ?_⟩
      · rw [List.range_succ, List.forM_eq_forM, List.forM_append, Stateful.run_bind_eq_ok]
        refine ⟨(), y, hrun, Stateful.run_bind_eq_ok.2 ⟨(), _, hnew, rfl⟩⟩
      · intro i hi
        by_cases hin : i = n
        · subst hin
          exact ⟨old, new, hold, lane_setLane_self hy, hstep⟩
        · obtain ⟨old', new', hold', hnew', hstep'⟩ := hdone i (by omega)
          refine ⟨old', new', hold', lane_eq_ok.2 ?_, hstep'⟩
          rw [setLane, List.getElem?_set_ne (by omega)]
          exact lane_eq_ok.1 hnew'
      · intro i hi
        rw [setLane, List.getElem?_set_ne (by omega), hleft i (by omega)]
  obtain ⟨y, hrun, ht, hr, hl, hdone, -⟩ := hprefix _ (Nat.le_refl _)
  exact ⟨y, hrun, ht, hr, hl, hx.length_lanes.symm ▸ hdone⟩

namespace Written

variable {c : LiveChain} {step : Nat → RowStep k.Elem}

theorem kept (h : Written c k step x y) : Kept c x y := by
  have hmap : ∀ {τ : Type} (f : Lane → τ),
      (∀ i < x.lanes.length, ∀ old new : Array k.Elem, (step i).Wrote c.visited old new →
        f ⟨k, new⟩ = f ⟨k, old⟩) → y.lanes.map f = x.lanes.map f := by
    intro τ f hf
    refine List.ext_getElem (by simp [h.length_eq]) fun i hy hx => ?_
    rw [List.length_map] at hx hy
    obtain ⟨old, new, hold, hnew, hstep⟩ := h.lane i hx
    rw [lane_eq_ok, List.getElem?_eq_getElem ‹_›, Option.some.injEq] at hold hnew
    rw [List.getElem_map, List.getElem_map, hold, hnew, hf i hx old new hstep]
  refine ⟨?_, fun r hr => ?_⟩
  · rw [shape, shape, h.type_eq, h.rows_eq, hmap Lane.shape]
    intro i _ old new hstep
    simp only [Lane.shape, Lane.rows, hstep.size_eq]
  · rw [atRow, atRow, h.type_eq, hmap (·.atRow r)]
    intro i _ old new hstep
    simp only [Lane.atRow, rowSlice_congr (hstep.dead r hr)]

/-- What the steps compute at a live row is what the row holds in the end. -/
theorem holds (h : Written c k step x y) (hr : r ∈ c.visited)
    (hlen : es.length = x.lanes.length)
    (hes : ∀ (i : Nat) (e : k.Elem), es[i]? = some e → ∀ old, step i r old = .ok e) :
    y.Holds k r es where
  length_eq := hlen.trans h.length_eq.symm
  lane i e he := by
    have hi : i < x.lanes.length := hlen ▸ (List.getElem?_eq_some_iff.1 he).1
    obtain ⟨old, new, -, hnew, hstep⟩ := h.lane i hi
    obtain ⟨a, b, -, hb, hget⟩ := hstep.live r hr
    rw [hes i e he a, Except.ok.injEq] at hb
    exact ⟨new, hnew, by rw [hget, hb]⟩

end Written

end Register

end BatchShader
