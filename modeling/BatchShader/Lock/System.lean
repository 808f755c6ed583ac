/-
  Threads that take turns on a shared state.

  A system has a start and, for each thread, the states its next atomic step may lead to: none if
  the thread has to wait, several if the outcome is open. Any interleaving is a run.
-/

namespace BatchShader.Lock

structure System where
  State : Type
  start : State
  /-- The states that the next step of a thread may lead to. -/
  next : Nat → State → List State

namespace System

/-- The states that some interleaving reaches. -/
inductive Reachable (S : System) : S.State → Prop
  | start : Reachable S S.start
  | step {s s' : S.State} {t : Nat} : Reachable S s → s' ∈ S.next t s → Reachable S s'

/-- What the start has and every step preserves, every reachable state has. -/
theorem Reachable.keeps {S : System} {P : S.State → Prop} (start : P S.start)
    (step : ∀ {s s' : S.State} {t : Nat}, P s → s' ∈ S.next t s → P s') {s : S.State}
    (h : S.Reachable s) : P s := by
  induction h with
  | start => exact start
  | step _ hnext ih => exact step ih hnext

/-- A step: the thread that takes it, and the states before and after. -/
structure Step (S : System) where
  thread : Nat
  before : S.State
  after : S.State

/-- The steps of an interleaving, the earliest first, and the state that they reach. -/
inductive Run (S : System) : List S.Step → S.State → Prop
  | start : Run S [] S.start
  | step {steps : List S.Step} {s s' : S.State} {t : Nat} :
    Run S steps s → s' ∈ S.next t s → Run S (steps ++ [⟨t, s, s'⟩]) s'

theorem Run.reachable {S : System} {steps : List S.Step} {s : S.State} (h : S.Run steps s) :
    S.Reachable s := by
  induction h with
  | start => exact .start
  | step _ hnext ih => exact ih.step hnext

theorem Run.of_append_singleton {S : System} {steps : List S.Step} {e : S.Step} {s : S.State}
    (h : S.Run (steps ++ [e]) s) :
    s = e.after ∧ S.Run steps e.before ∧ e.after ∈ S.next e.thread e.before := by
  generalize hl : steps ++ [e] = l at h
  cases h with
  | start => exact absurd hl (by simp)
  | step hrun hnext =>
    obtain ⟨rfl, he⟩ := List.append_inj' hl rfl
    obtain rfl := List.singleton_inj.1 he
    exact ⟨rfl, hrun, hnext⟩

/-- The steps of threads that take turns as listed, the first possible outcome of each. A thread that
has to wait misses its turn. -/
def schedule (S : System) : List Nat → S.State → List S.Step
  | [], _ => []
  | t :: turns, s =>
    match S.next t s with
    | s' :: _ => ⟨t, s, s'⟩ :: S.schedule turns s'
    | [] => S.schedule turns s

theorem Run.exists_schedule {S : System} (turns : List Nat) {steps : List S.Step} {s : S.State}
    (h : S.Run steps s) : ∃ s', S.Run (steps ++ S.schedule turns s) s' := by
  induction turns generalizing steps s with
  | nil => exact ⟨s, by rw [schedule, List.append_nil]; exact h⟩
  | cons t turns ih =>
    rw [schedule]
    split
    · next s' rest hnext =>
      rw [List.append_cons]
      exact ih (h.step (by rw [hnext]; exact List.mem_cons_self))
    · exact ih h

/-- Lets one thread take up to `n` steps, the first possible outcome of each. -/
def advance (S : System) (t : Nat) : Nat → S.State → S.State
  | 0, s => s
  | n + 1, s =>
    match S.next t s with
    | s' :: _ => S.advance t n s'
    | [] => s

theorem Reachable.advance {S : System} {t : Nat} (n : Nat) {s : S.State} (h : S.Reachable s) :
    S.Reachable (S.advance t n s) := by
  induction n generalizing s with
  | zero => exact h
  | succ n ih =>
    unfold System.advance
    split
    · next hs => exact ih (h.step (t := t) (by rw [hs]; exact List.mem_cons_self))
    · exact h

/-- Lets each of `threads` threads take `rounds` turns of up to `n` steps, one thread after the
other. -/
def takeTurns (S : System) (threads rounds n : Nat) (s : S.State) : S.State :=
  (List.range threads).foldl
    (fun s t => (List.range rounds).foldl (fun s _ => S.advance t n s) s) s

end System

/-! ## Groups of points -/

/-- A group of points that at most one thread is in at a time stays so when a thread moves, if that
thread was in the group before or nobody was. -/
theorem eq_of_move {P : Type} {points : Nat → P} {group : P → Bool} {t : Nat} {p : P}
    (h : ∀ u v, group (points u) → group (points v) → u = v)
    (hp : group p → group (points t) ∨ ∀ u, ¬ group (points u)) {u v : Nat}
    (hu : group (if u = t then p else points u)) (hv : group (if v = t then p else points v)) :
    u = v := by
  have hold {w : Nat} (hw : group (if w = t then p else points w)) :
      group (points w) ∨ w = t ∧ ∀ u, ¬ group (points u) := by
    split at hw
    · next h => subst h; exact (hp hw).imp_right fun hn => ⟨rfl, hn⟩
    · exact .inl hw
  rcases hold hu with hgu | ⟨hut, hn⟩ <;> rcases hold hv with hgv | ⟨hvt, hn'⟩
  · exact h u v hgu hgv
  · exact absurd hgu (hn' u)
  · exact absurd hgv (hn v)
  · exact hut.trans hvt.symm

end BatchShader.Lock
