import BatchShader.Batch
import BatchShader.Proofs.Row

/-
  Batches, and what execution may change in them.

  `Sound b`: the variables of a batch are well-formed registers of its length, its chain is the one
  built for the rows it visits, and no live row has been discarded. `Runs b c`: the rows of the
  chain `c` are rows of the batch that have not been discarded.

  `Frame c b b'`: from `b` to `b'` nothing has changed at rows that `c` does not visit. A variable
  is never lost and keeps its type; one that is new holds zero at the other rows. The chain of `b'`
  is what remains of the chain of `b` without the rows that `b'` has discarded.
-/

namespace BatchShader

/-! ## Variables -/

theorem Store.contains_eq_true_iff {s : Store} {x : String} :
    s.contains x = true ↔ ∃ R, s.get? x = some R := Option.isSome_iff_exists

theorem Store.contains_eq_false_iff {s : Store} {x : String} :
    s.contains x = false ↔ s.get? x = none :=
  Option.isSome_eq_false_iff.trans Option.isNone_iff_eq_none

namespace Batch

/-! ## Soundness -/

/-- Variables, chain and discarded rows fit each other. -/
structure Sound (b : Batch) : Prop where
  chain : b.chain.Canonical
  store_rows : b.store.rows = b.rows
  wellFormed : ∀ x R, b.store.get? x = some R → R.WellFormed ∧ R.rows = b.rows
  size_discarded : b.discarded.size = b.rows
  live : ∀ r ∈ b.chain.visited, b.isDiscarded r = false

/-- The rows of the chain are rows of the batch that have not been discarded. -/
structure Runs (b : Batch) (c : LiveChain) : Prop where
  canonical : c.Canonical
  rows_eq : c.rows = b.rows
  live : ∀ r ∈ c.visited, b.isDiscarded r = false

theorem Sound.runs {b : Batch} (h : b.Sound) : b.Runs b.chain := ⟨h.chain, rfl, h.live⟩

theorem sound_ofChain {c : LiveChain} (hc : c.Canonical) : (ofChain c).Sound where
  chain := hc
  store_rows := rfl
  wellFormed _ _ h := by cases h
  size_discarded := Array.size_replicate
  live r hr := by
    have hlt : r < c.rows := LiveChain.lt_rows_of_mem_visited hr
    simp [isDiscarded, ofChain, Array.getD, hlt]

/-- The new batch of one row. -/
theorem new_one : new 1 = .ok (ofChain .single) := rfl

theorem Sound.put {b : Batch} (h : b.Sound) (x : String) {R : Register} (hR : R.WellFormed)
    (hrows : R.rows = b.rows) : Sound { b with store := b.store.put x R } where
  chain := h.chain
  store_rows := h.store_rows
  wellFormed y S hS := by
    dsimp only at hS
    rw [Store.get?_put] at hS
    split at hS
    · cases hS
      exact ⟨hR, hrows⟩
    · exact h.wellFormed y S hS
  size_discarded := h.size_discarded
  live := h.live

theorem setInput_eq_ok {b b' : Batch} {x : String} {R : Register} :
    b.setInput x R = .ok b' ↔
      R.rows = b.store.rows ∧ b' = { b with store := b.store.put x R } := by
  unfold setInput Store.insert
  by_cases h : R.rows = b.store.rows
  · rw [if_pos h]
    exact ⟨fun e => ⟨h, (Except.ok.inj e).symm⟩, fun e => by rw [e.2]; rfl⟩
  · rw [if_neg h]
    exact ⟨fun e => (nomatch e), fun e => absurd e.1 h⟩

theorem Sound.setInput {b b' : Batch} (h : b.Sound) {x : String} {R : Register}
    (hR : R.WellFormed) (hb' : b.setInput x R = .ok b') : b'.Sound := by
  obtain ⟨hrows, rfl⟩ := setInput_eq_ok.1 hb'
  exact h.put x hR (hrows.trans h.store_rows)

theorem register_eq_ok {b : Batch} {x : String} {R : Register} :
    b.register x = .ok R ↔ b.store.get? x = some R := by
  unfold register
  cases b.store.get? x <;> simp [Outcome.fail]

/-! ## Discarding -/

section Discard

variable {b : Batch} {c : LiveChain}

theorem isDiscarded_discard (b : Batch) (c : LiveChain) (r : Nat) :
    (b.discard c).isDiscarded r =
      (decide (r ∈ c.visited ∧ r < b.discarded.size) || b.isDiscarded r) :=
  LiveChain.getD_foldl_setTrue c.visited b.discarded r

theorem rows_discard (b : Batch) (c : LiveChain) : (b.discard c).rows = b.rows :=
  LiveChain.rows_filter ..

/-- The rows of a batch and of a chain for it have flags. -/
theorem Sound.discardRows (h : b.Sound) (hrows : c.rows = b.rows) :
    b.discardRows c = .ok (b.discard c) := by
  refine if_pos (List.all_eq_true.2 fun r hr => decide_eq_true ?_)
  rw [h.size_discarded]
  rcases List.mem_append.1 hr with hr | hr
  · rw [← hrows]
    exact LiveChain.lt_rows_of_mem_visited hr
  · exact LiveChain.lt_rows_of_mem_visited hr

theorem Sound.discard (h : b.Sound) (c : LiveChain) : (b.discard c).Sound where
  chain := LiveChain.canonical_filter h.chain.limit _
  store_rows := h.store_rows.trans (rows_discard b c).symm
  wellFormed x R hR := by
    rw [rows_discard]
    exact h.wellFormed x R hR
  size_discarded := by
    rw [rows_discard, ← h.size_discarded]
    exact LiveChain.size_foldl_setTrue ..
  live r hr := by
    rw [Batch.discard, LiveChain.visited_filter h.chain.limit, List.mem_filter,
      Bool.not_eq_true'] at hr
    exact hr.2

end Discard

/-! ## Chains of running rows -/

namespace Runs

variable {b : Batch} {c : LiveChain}

theorem lt_rows (h : b.Runs c) {r : Nat} (hr : r ∈ c.visited) : r < b.rows := by
  rw [← h.rows_eq]
  exact LiveChain.lt_rows_of_mem_visited hr

theorem filter (h : b.Runs c) (keep : Nat → Bool) : b.Runs (c.filter keep) where
  canonical := LiveChain.canonical_filter h.canonical.limit keep
  rows_eq := (LiveChain.rows_filter c keep).trans h.rows_eq
  live r hr := by
    rw [LiveChain.visited_filter h.canonical.limit] at hr
    exact h.live r (List.mem_filter.1 hr).1

/-- Discarding nothing, a batch keeps its running rows. -/
theorem of_discarded_eq {b' : Batch} (h : b.Runs c) (hrows : b'.rows = b.rows)
    (hdiscarded : b'.discarded = b.discarded) : b'.Runs c where
  canonical := h.canonical
  rows_eq := h.rows_eq.trans hrows.symm
  live r hr := by
    rw [isDiscarded, hdiscarded]
    exact h.live r hr

end Runs

/-- The rows of a chain that have not been discarded by now. -/
def remaining (b : Batch) (c : LiveChain) : LiveChain := c.filter fun row => !b.isDiscarded row

section Remaining

variable {b b' : Batch} {c : LiveChain}

theorem mem_visited_remaining (h : c.rows ≤ maxBatchRows) {r : Nat} :
    r ∈ (b.remaining c).visited ↔ r ∈ c.visited ∧ b.isDiscarded r = false := by
  rw [remaining, LiveChain.visited_filter h, List.mem_filter, Bool.not_eq_true']

theorem Runs.remaining_eq (h : b.Runs c) : b.remaining c = c :=
  h.canonical.filter_eq_self fun r hr => by rw [h.live r hr, Bool.not_false]

theorem runs_remaining (hc : c.Canonical) (hrows : c.rows = b.rows) : b.Runs (b.remaining c) where
  canonical := LiveChain.canonical_filter hc.limit _
  rows_eq := (LiveChain.rows_filter c _).trans hrows
  live _ hr := ((mem_visited_remaining hc.limit).1 hr).2

/-- What remains of the remaining rows is what remains of all. -/
theorem remaining_remaining (h : c.rows ≤ maxBatchRows)
    (hmono : ∀ r, b.isDiscarded r = true → b'.isDiscarded r = true) :
    b'.remaining (b.remaining c) = b'.remaining c := by
  rw [remaining, remaining, LiveChain.filter_filter h, remaining]
  refine congrArg c.filter (funext fun r => ?_)
  cases hr : b.isDiscarded r with
  | false => rw [Bool.not_false, Bool.true_and]
  | true => rw [hmono r hr, Bool.not_true, Bool.and_self]

/-- None of the rows that are discarded remains. -/
theorem remaining_discard (h : b.Sound) (hrows : c.rows = b.rows) :
    (b.discard c).remaining c = c.cleared :=
  LiveChain.filter_eq_cleared fun r hr => by
    have hlt : r < b.discarded.size := by
      rw [h.size_discarded, ← hrows]
      exact LiveChain.lt_rows_of_mem_visited hr
    rw [isDiscarded_discard, decide_eq_true ⟨hr, hlt⟩, Bool.true_or, Bool.not_true]

end Remaining

/-! ## Frames -/

/-- Nothing has changed at rows that the chain does not visit. -/
structure Frame (c : LiveChain) (b b' : Batch) : Prop where
  sound : b'.Sound
  rows_eq : b'.rows = b.rows
  textures_eq : b'.textures = b.textures
  kept : ∀ x R, b.store.get? x = some R → ∃ R', b'.store.get? x = some R' ∧ Register.Kept c R R'
  declared : ∀ x R, b.store.get? x = none → b'.store.get? x = some R →
    Register.Kept c (.zeroed R.type b.rows) R
  discarded_mono : ∀ r, b.isDiscarded r = true → b'.isDiscarded r = true
  discarded_eq : ∀ r, r ∉ c.visited → b'.isDiscarded r = b.isDiscarded r
  chain_eq : b'.chain = b'.remaining b.chain

namespace Frame

variable {b b' b'' : Batch} {c d : LiveChain}

theorem refl (c : LiveChain) (h : b.Sound) : Frame c b b where
  sound := h
  rows_eq := rfl
  textures_eq := rfl
  kept _ R hR := ⟨R, hR, .refl c R⟩
  declared x R hnone hR := by
    rw [hnone] at hR
    cases hR
  discarded_mono _ h := h
  discarded_eq _ _ := rfl
  chain_eq := h.runs.remaining_eq.symm

theorem trans (h : Frame c b b') (h' : Frame d b' b'')
    (hd : ∀ r ∈ d.visited, r ∈ c.visited) : Frame c b b'' where
  sound := h'.sound
  rows_eq := h'.rows_eq.trans h.rows_eq
  textures_eq := h'.textures_eq.trans h.textures_eq
  kept x R hR := by
    obtain ⟨R', hR', hkept⟩ := h.kept x R hR
    obtain ⟨R'', hR'', hkept'⟩ := h'.kept x R' hR'
    exact ⟨R'', hR'', hkept.trans (hkept'.mono hd)⟩
  declared x R hnone hR := by
    cases hmid : b'.store.get? x with
    | none =>
      rw [← h.rows_eq]
      exact (h'.declared x R hmid hR).mono hd
    | some R' =>
      obtain ⟨R'', hR'', hkept'⟩ := h'.kept x R' hmid
      obtain rfl : R'' = R := Option.some.inj (hR''.symm.trans hR)
      rw [hkept'.type_eq]
      exact (h.declared x R' hnone hmid).trans (hkept'.mono hd)
  discarded_mono r hr := h'.discarded_mono r (h.discarded_mono r hr)
  discarded_eq r hr :=
    (h'.discarded_eq r fun hr' => hr (hd r hr')).trans (h.discarded_eq r hr)
  chain_eq := by
    have hlimit : b.chain.rows ≤ maxBatchRows := le_of_eq_of_le h.rows_eq.symm h.sound.chain.limit
    rw [h'.chain_eq, h.chain_eq, remaining_remaining hlimit h'.discarded_mono]

theorem mono (h : Frame d b b') (hd : ∀ r ∈ d.visited, r ∈ c.visited) : Frame c b b' where
  sound := h.sound
  rows_eq := h.rows_eq
  textures_eq := h.textures_eq
  kept x R hR := by
    obtain ⟨R', hR', hkept⟩ := h.kept x R hR
    exact ⟨R', hR', hkept.mono hd⟩
  declared x R hnone hR := (h.declared x R hnone hR).mono hd
  discarded_mono := h.discarded_mono
  discarded_eq r hr := h.discarded_eq r fun hr' => hr (hd r hr')
  chain_eq := h.chain_eq

/-- A variable of the later batch at a row that the chain does not visit: it was there with the
same content, or it is new and holds zero. -/
theorem atRow_eq (h : Frame c b b') {r : Nat} (hr : r ∉ c.visited) (hlt : r < b.rows)
    {x : String} {R' : Register} (hR' : b'.store.get? x = some R') :
    (∃ R, b.store.get? x = some R ∧ R'.atRow r = R.atRow r) ∨
      b.store.get? x = none ∧ R'.atRow r = .zeroed R'.type 1 := by
  cases hR : b.store.get? x with
  | none =>
    refine .inr ⟨rfl, ?_⟩
    rw [(h.declared x R' hR hR').atRow_eq r hr, Register.atRow_zeroed hlt]
  | some R =>
    obtain ⟨R'', hR'', hkept⟩ := h.kept x R hR
    obtain rfl : R'' = R' := Option.some.inj (hR''.symm.trans hR')
    exact .inl ⟨R, rfl, hkept.atRow_eq r hr⟩

end Frame

section Changes

variable {b : Batch} {c : LiveChain}

/-- Writing to a variable at live rows. -/
theorem frame_put (h : b.Sound) {x : String} {R R' : Register} (hR : b.store.get? x = some R)
    (hkept : Register.Kept c R R') : Frame c b { b with store := b.store.put x R' } where
  sound := h.put x (hkept.wellFormed (h.wellFormed x R hR).1)
    (hkept.rows_eq.trans (h.wellFormed x R hR).2)
  rows_eq := rfl
  textures_eq := rfl
  kept y S hS := by
    dsimp only
    rw [Store.get?_put]
    split
    · next hy =>
      subst hy
      obtain rfl : R = S := Option.some.inj (hR.symm.trans hS)
      exact ⟨R', rfl, hkept⟩
    · exact ⟨S, hS, .refl c S⟩
  declared y S hnone hS := by
    dsimp only at hS
    rw [Store.get?_put] at hS
    split at hS
    · next hy =>
      subst hy
      rw [hR] at hnone
      cases hnone
    · rw [hnone] at hS
      cases hS
  discarded_mono _ h := h
  discarded_eq _ _ := rfl
  chain_eq := h.runs.remaining_eq.symm

/-- Declaring a variable. -/
theorem frame_declare (h : b.Sound) {x : String} (hx : b.store.get? x = none) (t : ShaderType) :
    Frame c b { b with store := b.store.put x (.zeroed t b.rows) } where
  sound := h.put x (Register.zeroed_wellFormed t b.rows) rfl
  rows_eq := rfl
  textures_eq := rfl
  kept y S hS := by
    dsimp only
    rw [Store.get?_put]
    split
    · next hy =>
      subst hy
      rw [hx] at hS
      cases hS
    · exact ⟨S, hS, .refl c S⟩
  declared y S hnone hS := by
    dsimp only at hS
    rw [Store.get?_put] at hS
    split at hS
    · cases hS
      exact .refl c _
    · rw [hnone] at hS
      cases hS
  discarded_mono _ h := h
  discarded_eq _ _ := rfl
  chain_eq := h.runs.remaining_eq.symm

/-- Discarding the live rows. -/
theorem frame_discard (h : b.Sound) : Frame c b (b.discard c) where
  sound := h.discard c
  rows_eq := rows_discard b c
  textures_eq := rfl
  kept _ R hR := ⟨R, hR, .refl c R⟩
  declared x R hnone hR := by
    change b.store.get? x = some R at hR
    rw [hnone] at hR
    cases hR
  discarded_mono r hr := by rw [isDiscarded_discard, hr, Bool.or_true]
  discarded_eq r hr := by
    rw [isDiscarded_discard, decide_eq_false fun h => hr h.1, Bool.false_or]
  chain_eq := rfl

end Changes

/-- Rows that another chain does not visit still run after what is done under that chain. -/
theorem Runs.frame {b b' : Batch} {c d : LiveChain} (h : b.Runs d) (hf : Frame c b b')
    (hd : ∀ r ∈ d.visited, r ∉ c.visited) : b'.Runs d where
  canonical := h.canonical
  rows_eq := h.rows_eq.trans hf.rows_eq.symm
  live r hr := (hf.discarded_eq r (hd r hr)).trans (h.live r hr)

end Batch

end BatchShader
