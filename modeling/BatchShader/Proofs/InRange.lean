import BatchShader.Proofs.Sequence

/-
  Nothing out of range.

  `Outcome.InRange x`: the computation `x` does not try to access a row or a lane that does not
  exist. It may fail, but then with an error of the engine (`exists_error`). A sequence of steps is
  in range if each step is after those before it (`InRange.bind`), and a loop if each step is from
  what the steps before it have kept (`Yields`, `yields_foldlM`). The same for actions on a state is
  `Stateful.InRange`. The other way round, `Outcome.Quiet x`: if `x` has no result, then only
  because it goes out of range.
-/

namespace BatchShader

namespace Outcome

variable {α β σ : Type} {x : Outcome α}

/-- No access out of range. -/
def InRange (x : Outcome α) : Prop := x ≠ .error .outOfRange

@[simp] theorem inRange_ok (a : α) : InRange (.ok a : Outcome α) := fun h => nomatch h

@[simp] theorem inRange_fail (e : EngineError) : InRange (fail e : Outcome α) := fun h => nomatch h

@[simp] theorem inRange_mismatch (m : Mismatch) : InRange (mismatch m : Outcome α) := inRange_fail _

/-- A failure in range is an error of the engine. -/
theorem InRange.exists_error (h : x.InRange) {f : Failure} (hf : x = .error f) :
    ∃ e, f = .error e := by
  cases f with
  | error e => exact ⟨e, rfl⟩
  | outOfRange => exact absurd hf h

/-- A computation in range has a result or an error of the engine. -/
theorem InRange.ok_or_error (h : x.InRange) :
    (∃ a, x = .ok a) ∨ ∃ e, x = .error (.error e) := by
  cases hx : x with
  | ok a => exact .inl ⟨a, rfl⟩
  | error f =>
    obtain ⟨e, rfl⟩ := h.exists_error hx
    exact .inr ⟨e, rfl⟩

theorem InRange.bind {f : α → Outcome β} (hx : x.InRange)
    (hf : ∀ a, x = .ok a → (f a).InRange) : (x >>= f).InRange := by
  cases hx' : x with
  | ok a => exact hf a hx'
  | error e =>
    intro h
    rw [hx'] at hx
    exact hx (congrArg _ (Except.error.inj h))

/-- What follows a check is in range if it is when nothing is found wrong. -/
theorem inRange_check {p : Prop} [Decidable p] {m : Mismatch} (h : ¬p → x.InRange) :
    InRange (if p then mismatch m else x) := by
  by_cases hp : p
  · rw [if_pos hp]
    exact inRange_mismatch m
  · rw [if_neg hp]
    exact h hp

/-- No access out of range, and `P` holds of what is computed. -/
structure Yields (x : Outcome α) (P : α → Prop) : Prop where
  inRange : x.InRange
  holds : ∀ a, x = .ok a → P a

variable {P : α → Prop} {Q : β → Prop}

theorem yields_ok {a : α} (h : P a) : Yields (.ok a) P :=
  ⟨inRange_ok a, fun _ heq => Except.ok.inj heq ▸ h⟩

theorem yields_mismatch (m : Mismatch) : Yields (mismatch m : Outcome α) P :=
  ⟨inRange_mismatch m, fun _ h => nomatch h⟩

theorem yields_of_exists (h : ∃ a, x = .ok a ∧ P a) : x.Yields P := by
  obtain ⟨a, rfl, ha⟩ := h
  exact yields_ok ha

theorem Yields.bind {f : α → Outcome β} (hx : x.Yields P)
    (hf : ∀ a, x = .ok a → P a → (f a).Yields Q) : (x >>= f).Yields Q where
  inRange := hx.inRange.bind fun a ha => (hf a ha (hx.holds a ha)).inRange
  holds b hb := by
    obtain ⟨a, ha, hb⟩ := bind_eq_ok.1 hb
    exact (hf a ha (hx.holds a ha)).holds b hb

theorem yields_check {p : Prop} [Decidable p] {m : Mismatch} (h : ¬p → x.Yields P) :
    Yields (if p then mismatch m else x) P := by
  by_cases hp : p
  · rw [if_pos hp]
    exact yields_mismatch m
  · rw [if_neg hp]
    exact h hp

/-- What each step of a loop keeps, the loop keeps, and is in range if the steps are. -/
theorem yields_foldlM {P : σ → Prop} {f : σ → α → Outcome σ} {l : List α}
    (step : ∀ a ∈ l, ∀ s, P s → (f s a).Yields P) {s : σ} (hs : P s) :
    (l.foldlM f s).Yields P := by
  induction l generalizing s with
  | nil => exact yields_ok hs
  | cons a l ih =>
    rw [List.forall_mem_cons] at step
    rw [List.foldlM_cons]
    exact (step.1 s hs).bind fun t _ ht => ih step.2 ht

/-! ## Nothing to report -/

/-- No error of the engine: there is a result, or an access out of range. -/
def Quiet (x : Outcome α) : Prop := ∀ e, x ≠ .error (.error e)

theorem quiet_ok (a : α) : Quiet (.ok a : Outcome α) := fun _ h => nomatch h

theorem quiet_outOfRange : Quiet (.error .outOfRange : Outcome α) := fun _ h => nomatch h

theorem quiet_require (a : Option α) : Quiet (require a) := by
  cases a with
  | none => exact quiet_outOfRange
  | some a => exact quiet_ok a

theorem Quiet.ok_or_outOfRange (h : x.Quiet) : (∃ a, x = .ok a) ∨ x = .error .outOfRange := by
  cases hx : x with
  | ok a => exact .inl ⟨a, rfl⟩
  | error f =>
    cases f with
    | error e => exact absurd hx (h e)
    | outOfRange => exact .inr rfl

theorem Quiet.bind {f : α → Outcome β} (hx : x.Quiet) (hf : ∀ a, (f a).Quiet) :
    (x >>= f).Quiet := by
  obtain ⟨a, rfl⟩ | rfl := hx.ok_or_outOfRange
  · exact hf a
  · exact quiet_outOfRange

theorem quiet_foldlM {f : σ → α → Outcome σ} {l : List α}
    (h : ∀ a ∈ l, ∀ s, (f s a).Quiet) (s : σ) : (l.foldlM f s).Quiet := by
  induction l generalizing s with
  | nil => exact quiet_ok s
  | cons a l ih =>
    rw [List.forall_mem_cons] at h
    rw [List.foldlM_cons]
    exact (h.1 s).bind (ih h.2)

end Outcome

namespace Stateful

variable {σ α β : Type}

/-- An action that makes no access out of range from a state. -/
def InRange (x : EStateM Failure σ α) (s : σ) : Prop := ∀ t, x.run s ≠ .error .outOfRange t

/-- A failure in range is an error of the engine. -/
theorem InRange.exists_error {x : EStateM Failure σ α} {s t : σ} (h : InRange x s) {f : Failure}
    (hf : x.run s = .error f t) : ∃ e, f = .error e := by
  cases f with
  | error e => exact ⟨e, rfl⟩
  | outOfRange => exact absurd hf (h t)

/-- An action in range ends with a result or an error of the engine. -/
theorem InRange.ok_or_error {x : EStateM Failure σ α} {s : σ} (h : InRange x s) :
    (∃ a t, x.run s = .ok a t) ∨ ∃ e t, x.run s = .error (.error e) t := by
  cases hx : x.run s with
  | ok a t => exact .inl ⟨a, t, rfl⟩
  | error f t =>
    obtain ⟨e, rfl⟩ := h.exists_error hx
    exact .inr ⟨e, t, rfl⟩

theorem InRange.bind {x : EStateM Failure σ α} {f : α → EStateM Failure σ β} {s : σ}
    (hx : InRange x s) (hf : ∀ a t, x.run s = .ok a t → InRange (f a) t) :
    InRange (x >>= f) s := by
  intro t h
  obtain h | ⟨a, mid, hmid, h⟩ := run_bind_eq_error.1 h
  · exact hx t h
  · exact hf a mid hmid t h

theorem inRange_pure (a : α) (s : σ) : InRange (pure a : EStateM Failure σ α) s :=
  fun _ h => nomatch h

theorem inRange_set (s s' : σ) : InRange (set s' : EStateM Failure σ PUnit) s :=
  fun _ h => nomatch h

theorem InRange.get_bind {f : σ → EStateM Failure σ β} {s : σ} (h : InRange (f s) s) :
    InRange ((get : EStateM Failure σ σ) >>= f) s := h

theorem InRange.ofExcept_bind {x : Outcome α} {f : α → EStateM Failure σ β} {s : σ}
    (hx : x.InRange) (hf : ∀ a, x = .ok a → InRange (f a) s) : InRange (ofExcept x >>= f) s := by
  refine InRange.bind (fun t h => hx (run_ofExcept_eq_error.1 h).1) fun a t h => ?_
  obtain ⟨hx, rfl⟩ := run_ofExcept_eq_ok.1 h
  exact hf a hx

end Stateful

end BatchShader
