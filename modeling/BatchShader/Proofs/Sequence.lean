import BatchShader.Failure

/-
  Steps taken one after the other.

  Loops over outcomes: what every step keeps, a successful loop keeps (`foldlM_keeps`), and a map
  of states that turns each successful step into a successful step does so for the loop
  (`foldlM_map_state`). Actions on a state: when a sequence of actions succeeds, and when it fails.
-/

namespace BatchShader

namespace Outcome

variable {α β γ σ τ : Type}

/-- An outcome that can be computed. -/
theorem exists_eq_ok {x : Outcome α} (h : x.isOk = true) : ∃ a, x = .ok a := by
  cases x with
  | ok a => exact ⟨a, rfl⟩
  | error f => cases h

/-- A failure that can be computed. -/
theorem exists_eq_error {x : Outcome α} {P : Failure → Bool}
    (h : (match x with
      | .ok _ => false
      | .error f => P f) = true) : ∃ f, x = .error f ∧ P f = true := by
  split at h
  · cases h
  · next f => exact ⟨f, rfl, h⟩

/-- What follows a check succeeds when nothing is found wrong. -/
theorem check_eq_ok {p : Prop} [Decidable p] {m : Mismatch} {x : Outcome α} {a : α} :
    (if p then mismatch m else x) = .ok a ↔ ¬p ∧ x = .ok a := by
  by_cases h : p <;> simp [h, mismatch, fail]

theorem map_bind {x : Outcome α} {f : α → β} {g : β → Outcome γ} :
    x.map f >>= g = x >>= fun a => g (f a) := by
  cases x <;> rfl

/-- Loops whose steps do the same do the same. -/
theorem foldlM_congr {f g : σ → α → Outcome σ} {l : List α}
    (h : ∀ a ∈ l, ∀ s, f s a = g s a) (s : σ) : l.foldlM f s = l.foldlM g s := by
  induction l generalizing s with
  | nil => rfl
  | cons a l ih =>
    rw [List.forall_mem_cons] at h
    rw [List.foldlM_cons, List.foldlM_cons, h.1]
    exact congrArg _ (funext fun t => ih h.2 t)

/-- What each step of a loop keeps, the loop keeps. -/
theorem foldlM_keeps {P : σ → Prop} {f : σ → α → Outcome σ} {l : List α}
    (step : ∀ a ∈ l, ∀ s t, P s → f s a = .ok t → P t) {s t : σ} (hs : P s)
    (h : l.foldlM f s = .ok t) : P t := by
  induction l generalizing s with
  | nil =>
    rw [← Except.ok.inj h]
    exact hs
  | cons a l ih =>
    rw [List.foldlM_cons, bind_eq_ok] at h
    obtain ⟨mid, hmid, h⟩ := h
    exact ih (fun b hb => step b (List.mem_cons_of_mem a hb))
      (step a List.mem_cons_self s mid hs hmid) h

/-- A loop follows another one through a map of states, if each of its steps does. -/
theorem foldlM_map_state {φ : σ → τ} {f : σ → α → Outcome σ} {g : τ → α → Outcome τ}
    {l : List α} (step : ∀ a ∈ l, ∀ s t, f s a = .ok t → g (φ s) a = .ok (φ t)) {s t : σ}
    (h : l.foldlM f s = .ok t) : l.foldlM g (φ s) = .ok (φ t) := by
  induction l generalizing s with
  | nil =>
    rw [← Except.ok.inj h]
    rfl
  | cons a l ih =>
    rw [List.foldlM_cons, bind_eq_ok] at h
    obtain ⟨mid, hmid, h⟩ := h
    rw [List.foldlM_cons, step a List.mem_cons_self s mid hmid, ok_bind]
    exact ih (fun b hb => step b (List.mem_cons_of_mem a hb)) h

/-- A loop succeeds if each step does from the states that can be reached. -/
theorem exists_foldlM {P : σ → Prop} {f : σ → α → Outcome σ} {l : List α}
    (step : ∀ a ∈ l, ∀ s, P s → ∃ t, f s a = .ok t ∧ P t) {s : σ} (hs : P s) :
    ∃ t, l.foldlM f s = .ok t ∧ P t := by
  induction l generalizing s with
  | nil => exact ⟨s, rfl, hs⟩
  | cons a l ih =>
    obtain ⟨mid, hmid, hP⟩ := step a List.mem_cons_self s hs
    obtain ⟨t, ht, hPt⟩ := ih (fun b hb => step b (List.mem_cons_of_mem a hb)) hP
    exact ⟨t, by rw [List.foldlM_cons, hmid, ok_bind, ht], hPt⟩

/-- Results computed one by one from the elements of a list. -/
theorem exists_mapM {f : α → Outcome β} {l : List α} (h : ∀ a ∈ l, ∃ b, f a = .ok b) :
    ∃ bs, l.mapM f = .ok bs ∧ bs.length = l.length ∧
      ∀ (i : Nat) (a : α) (b : β), l[i]? = some a → bs[i]? = some b → f a = .ok b := by
  induction l with
  | nil => exact ⟨[], rfl, rfl, fun i a b ha => nomatch ha⟩
  | cons a l ih =>
    obtain ⟨b, hb⟩ := h a List.mem_cons_self
    obtain ⟨bs, hbs, hlen, hget⟩ := ih fun a' ha' => h a' (List.mem_cons_of_mem a ha')
    refine ⟨b :: bs, ?_, by rw [List.length_cons, List.length_cons, hlen], ?_⟩
    · rw [List.mapM_cons, hb, ok_bind, hbs]
      rfl
    · intro i a' b' ha' hb'
      cases i with
      | zero =>
        cases ha'
        cases hb'
        exact hb
      | succ i => exact hget i a' b' ha' hb'

/-- Results computed one by one are as many as the elements, and each comes from one of them. -/
theorem mapM_eq_ok {f : α → Outcome β} {l : List α} {bs : List β} (h : l.mapM f = .ok bs) :
    bs.length = l.length ∧ ∀ b ∈ bs, ∃ a ∈ l, f a = .ok b := by
  induction l generalizing bs with
  | nil =>
    rw [← Except.ok.inj h]
    exact ⟨rfl, List.forall_mem_nil _⟩
  | cons a l ih =>
    rw [List.mapM_cons, bind_eq_ok] at h
    obtain ⟨b, hb, h⟩ := h
    obtain ⟨bs', hbs', h⟩ := bind_eq_ok.1 h
    obtain ⟨hlength, hmem⟩ := ih hbs'
    rw [← Except.ok.inj h, List.forall_mem_cons]
    refine ⟨by rw [List.length_cons, List.length_cons, hlength], ⟨a, List.mem_cons_self, hb⟩, ?_⟩
    intro b' hb'
    obtain ⟨a', ha', hfa'⟩ := hmem b' hb'
    exact ⟨a', List.mem_cons_of_mem a ha', hfa'⟩

end Outcome

/-! ## Actions on a state -/

namespace Stateful

variable {ε σ α β : Type}

theorem run_bind_eq_ok {x : EStateM ε σ α} {f : α → EStateM ε σ β} {s s' : σ} {b : β} :
    (x >>= f).run s = .ok b s' ↔ ∃ a t, x.run s = .ok a t ∧ (f a).run t = .ok b s' := by
  change EStateM.bind x f s = _ ↔ _
  unfold EStateM.bind EStateM.run
  cases x s with
  | ok a t =>
    refine ⟨fun h => ⟨a, t, rfl, h⟩, ?_⟩
    rintro ⟨a', t', he, h⟩
    cases he
    exact h
  | error e t =>
    refine ⟨fun h => (nomatch h), ?_⟩
    rintro ⟨a', t', he, -⟩
    cases he

theorem run_bind_eq_error {x : EStateM ε σ α} {f : α → EStateM ε σ β} {s s' : σ} {e : ε} :
    (x >>= f).run s = .error e s' ↔
      x.run s = .error e s' ∨ ∃ a t, x.run s = .ok a t ∧ (f a).run t = .error e s' := by
  change EStateM.bind x f s = _ ↔ _
  unfold EStateM.bind EStateM.run
  cases x s with
  | ok a t =>
    refine ⟨fun h => .inr ⟨a, t, rfl, h⟩, ?_⟩
    rintro (he | ⟨a', t', he, h⟩)
    · cases he
    · cases he
      exact h
  | error e' t =>
    refine ⟨fun h => .inl (by cases h; rfl), ?_⟩
    rintro (he | ⟨a', t', he, -⟩)
    · cases he
      rfl
    · cases he

/-- What follows an action is looked at only in the state in which the action succeeds. -/
theorem run_bind_congr {x y : EStateM ε σ α} {f g : α → EStateM ε σ β} {s : σ}
    (hx : x.run s = y.run s) (h : ∀ a t, x.run s = .ok a t → (f a).run t = (g a).run t) :
    (x >>= f).run s = (y >>= g).run s := by
  change EStateM.bind x f s = EStateM.bind y g s
  change x s = y s at hx
  unfold EStateM.bind
  rw [← hx]
  cases hs : x s with
  | ok a t => exact h a t hs
  | error e t => rfl

theorem run_ofExcept_eq_ok {x : Except ε α} {s s' : σ} {a : α} :
    (ofExcept x : EStateM ε σ α).run s = .ok a s' ↔ x = .ok a ∧ s' = s := by
  cases x with
  | ok b =>
    change EStateM.Result.ok b s = .ok a s' ↔ _
    simp [eq_comm]
  | error e =>
    change EStateM.Result.error e s = .ok a s' ↔ _
    simp

theorem run_ofExcept_eq_error {x : Except ε α} {s s' : σ} {e : ε} :
    (ofExcept x : EStateM ε σ α).run s = .error e s' ↔ x = .error e ∧ s' = s := by
  cases x with
  | ok b =>
    change EStateM.Result.ok b s = .error e s' ↔ _
    simp
  | error e' =>
    change EStateM.Result.error e' s = .error e s' ↔ _
    simp [eq_comm]

/-- What is to be done at the end is done after an action that succeeds, and does not change its
result. -/
theorem run_tryFinally_of_ok {x : EStateM ε σ α} {f : EStateM ε σ β} {s t u : σ} {a : α} {b : β}
    (hx : x.run s = .ok a t) (hf : f.run t = .ok b u) : (tryFinally x f).run s = .ok a u := by
  change EStateM.map Prod.fst (tryFinally' x fun _ => f) s = _
  change x s = _ at hx
  change f t = _ at hf
  simp only [EStateM.map, tryFinally', hx, hf]

theorem run_tryFinally_of_error {x : EStateM ε σ α} {f : EStateM ε σ β} {s t u : σ} {e : ε}
    {b : β} (hx : x.run s = .error e t) (hf : f.run t = .ok b u) :
    (tryFinally x f).run s = .error e u := by
  change EStateM.map Prod.fst (tryFinally' x fun _ => f) s = _
  change x s = _ at hx
  change f t = _ at hf
  simp only [EStateM.map, tryFinally', hx, hf]

/-- A run whose result can be computed. -/
theorem exists_run_eq_ok {x : EStateM ε σ Unit} {s : σ} {P : σ → Bool}
    (h : (match x.run s with
      | .ok _ t => P t
      | .error _ _ => false) = true) : ∃ t, x.run s = .ok () t ∧ P t = true := by
  split at h
  · next t ht => exact ⟨t, ht, h⟩
  · cases h

/-- A run that fails, whose failure can be computed. -/
theorem exists_run_eq_error {x : EStateM ε σ α} {s : σ} {P : ε → σ → Bool}
    (h : (match x.run s with
      | .ok _ _ => false
      | .error e t => P e t) = true) : ∃ e t, x.run s = .error e t ∧ P e t = true := by
  split at h
  · cases h
  · next e t ht => exact ⟨e, t, ht, h⟩

/-- The state in which an action ends, whether it succeeds or fails. -/
inductive Ends (x : EStateM ε σ α) (s t : σ) : Prop
  | ok (a : α) (h : x.run s = .ok a t)
  | error (e : ε) (h : x.run s = .error e t)

/-- The state in which an action ends, computed. -/
def final (x : EStateM ε σ α) (s : σ) : σ :=
  match x.run s with
  | .ok _ t => t
  | .error _ t => t

theorem ends_final (x : EStateM ε σ α) (s : σ) : Ends x s (final x s) := by
  unfold final
  cases h : x.run s with
  | ok a t => exact .ok a h
  | error e t => exact .error e h

theorem Ends.eq_final {x : EStateM ε σ α} {s t : σ} (h : Ends x s t) : t = final x s := by
  unfold final
  cases h with
  | ok a h => rw [h]
  | error e h => rw [h]

theorem Ends.bind {x : EStateM ε σ α} {f : α → EStateM ε σ β} {s t : σ}
    (h : Ends (x >>= f) s t) :
    (∃ e, x.run s = .error e t) ∨ ∃ a mid, x.run s = .ok a mid ∧ Ends (f a) mid t := by
  cases h with
  | ok b h =>
    obtain ⟨a, mid, hx, h⟩ := run_bind_eq_ok.1 h
    exact .inr ⟨a, mid, hx, .ok b h⟩
  | error e h =>
    rcases run_bind_eq_error.1 h with hx | ⟨a, mid, hx, h⟩
    · exact .inl ⟨e, hx⟩
    · exact .inr ⟨a, mid, hx, .error e h⟩

theorem Ends.pure {a : α} {s t : σ} (h : Ends (Pure.pure a : EStateM ε σ α) s t) : t = s := by
  cases h with
  | ok b h =>
    cases h
    rfl
  | error e h => cases h

theorem Ends.set {s s' t : σ} (h : Ends (MonadStateOf.set s' : EStateM ε σ PUnit) s t) :
    t = s' := by
  cases h with
  | ok b h =>
    cases h
    rfl
  | error e h => cases h

/-- What is done with the result of an action does not matter if it leaves the state alone. -/
theorem Ends.of_bind_pure {x : EStateM ε σ α} {g : α → β} {s t : σ}
    (h : Ends (x >>= fun a => Pure.pure (g a)) s t) : Ends x s t := by
  obtain ⟨e, hx⟩ | ⟨a, mid, hx, h⟩ := h.bind
  · exact .error e hx
  · exact .ok a (h.pure ▸ hx)

/-- A computation without effects that comes first leaves the state as it is. -/
theorem Ends.ofExcept_bind {x : Except ε α} {f : α → EStateM ε σ β} {s t : σ}
    (h : Ends (ofExcept x >>= f) s t) :
    (∃ e, x = .error e ∧ t = s) ∨ ∃ a, x = .ok a ∧ Ends (f a) s t := by
  rcases h.bind with ⟨e, hrun⟩ | ⟨a, mid, hrun, hends⟩
  · exact .inl ⟨e, run_ofExcept_eq_error.1 hrun⟩
  · obtain ⟨hx, rfl⟩ := run_ofExcept_eq_ok.1 hrun
    exact .inr ⟨a, hx, hends⟩

theorem Ends.get_bind {f : σ → EStateM ε σ β} {s t : σ}
    (h : Ends ((get : EStateM ε σ σ) >>= f) s t) : Ends (f s) s t := by
  rcases h.bind with ⟨_, hget⟩ | ⟨_, _, hget, h⟩
  · cases hget
  · cases hget
    exact h

/-- What each action of a loop keeps, the loop keeps. -/
theorem forM_keeps {P : σ → Prop} {f : α → EStateM ε σ PUnit} {l : List α}
    (step : ∀ a ∈ l, ∀ s t, P s → (f a).run s = .ok ⟨⟩ t → P t) {s t : σ} (hs : P s)
    (h : (l.forM f).run s = .ok ⟨⟩ t) : P t := by
  induction l generalizing s with
  | nil =>
    cases h
    exact hs
  | cons a l ih =>
    obtain ⟨_, mid, hmid, h⟩ := run_bind_eq_ok.1 h
    exact ih (fun b hb => step b (List.mem_cons_of_mem a hb))
      (step a List.mem_cons_self s mid hs hmid) h

/-- A loop of actions that succeeds goes from the end of one action to the end of the next. -/
theorem forM_eq_foldl {f : α → EStateM ε σ PUnit} {l : List α} {s t : σ}
    (h : (l.forM f).run s = .ok ⟨⟩ t) : t = l.foldl (fun s a => final (f a) s) s := by
  induction l generalizing s with
  | nil =>
    cases h
    rfl
  | cons a l ih =>
    obtain ⟨_, mid, hmid, h⟩ := run_bind_eq_ok.1 h
    rw [List.foldl_cons, ← (Ends.ok _ hmid).eq_final]
    exact ih h

/-- A loop of actions none of which fails. -/
theorem run_forM {f : α → EStateM ε σ PUnit} {g : σ → α → σ} {l : List α}
    (step : ∀ a ∈ l, ∀ s, (f a).run s = .ok ⟨⟩ (g s a)) (s : σ) :
    (l.forM f).run s = .ok ⟨⟩ (l.foldl g s) := by
  induction l generalizing s with
  | nil => rfl
  | cons a l ih =>
    rw [List.forall_mem_cons] at step
    exact run_bind_eq_ok.2 ⟨⟨⟩, g s a, step.1 s, ih step.2 (g s a)⟩

/-- A loop of actions follows another one through a map of states, if each of its actions does. -/
theorem forM_map_state {τ : Type} {φ : σ → τ} {f : α → EStateM ε σ PUnit}
    {g : α → EStateM ε τ PUnit} {l : List α}
    (step : ∀ a ∈ l, ∀ s t, (f a).run s = .ok ⟨⟩ t → (g a).run (φ s) = .ok ⟨⟩ (φ t)) {s t : σ}
    (h : (l.forM f).run s = .ok ⟨⟩ t) : (l.forM g).run (φ s) = .ok ⟨⟩ (φ t) := by
  induction l generalizing s with
  | nil =>
    cases h
    rfl
  | cons a l ih =>
    obtain ⟨_, mid, hmid, h⟩ := run_bind_eq_ok.1 h
    refine run_bind_eq_ok.2 ⟨⟨⟩, φ mid, step a List.mem_cons_self s mid hmid, ?_⟩
    exact ih (fun b hb => step b (List.mem_cons_of_mem a hb)) h

end Stateful

end BatchShader
