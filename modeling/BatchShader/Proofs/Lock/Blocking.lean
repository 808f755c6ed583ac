import BatchShader.Lock.Blocking
import Mathlib.Tactic.Common

/-
  The blocking lock excludes, and wakes whom it has to.

  `Step` lists what a step of a thread can be. `Relies` says what a thread may rely on at each point
  of the code: from taking the inner lock to giving it back that it has it, and what it knows of the
  flag meanwhile. With that, at most one thread is between setting and clearing the flag, and a
  thread that sleeps while the flag is clear has somebody who keeps watch over it: a thread that is
  to wake a sleeper, or one that is on its way to test the flag or to set it. These three facts are
  `Sound`; each step preserves them (`Sound.step`), so every interleaving does (`sound_of_reachable`).

  A thread that has found the flag clear sets it in a step of its own. Between the two steps the flag
  is still clear although the lock is as good as taken, and that thread alone may keep watch.
-/

namespace BatchShader.Lock.Blocking

/-! ## Points of the threads -/

namespace State

variable {s : State} {t u : Nat}

theorem point_move (h : t < s.points.size) (p : Point) (u : Nat) :
    (s.move t p).point u = if u = t then p else s.point u := by
  rw [point, move, Array.getD_eq_getD_getElem?, Array.getElem?_setIfInBounds]
  by_cases hu : u = t
  · rw [if_pos hu, if_pos hu.symm, if_pos h]
    rfl
  · rw [if_neg hu, if_neg (Ne.symm hu), point, Array.getD_eq_getD_getElem?]

theorem size_move (s : State) (t : Nat) (p : Point) :
    (s.move t p).points.size = s.points.size := Array.size_setIfInBounds

theorem lt_size_of_point_ne (h : s.point t ≠ .outside) : t < s.points.size := by
  by_contra hlt
  exact h (by simp [point, Array.getD, hlt])

theorem mem_sleepers : u ∈ s.sleepers ↔ s.point u = .asleep := by
  rw [sleepers, List.mem_filter, List.mem_range, decide_eq_true_iff]
  refine ⟨And.right, fun h => ⟨lt_size_of_point_ne ?_, h⟩⟩
  rw [h]
  decide

end State

/-! ## Steps -/

/-- What a step of thread `t` may be. -/
inductive Step (t : Nat) (s : State) : State → Prop
  | enter (h : s.point t = .outside) : Step t s (s.move t .entering)
  | takeToTest (h : s.point t = .entering) (hi : s.inner = none) :
      Step t s ({ s with inner := some t }.move t .testing)
  | findSet (h : s.point t = .testing) (hf : s.flag = true) : Step t s (s.move t .waiting)
  | findClear (h : s.point t = .testing) (hf : s.flag = false) : Step t s (s.move t .setting)
  | sleep (h : s.point t = .waiting) : Step t s ({ s with inner := none }.move t .asleep)
  | wake (h : s.point t = .asleep) : Step t s (s.move t .entering)
  | set (h : s.point t = .setting) : Step t s ({ s with flag := true }.move t .finishing)
  | finish (h : s.point t = .finishing) : Step t s ({ s with inner := none }.move t .inside)
  | count (h : s.point t = .inside) :
      Step t s ({ s with counter := s.counter + 1 }.move t .leaving)
  | takeToClear (h : s.point t = .leaving) (hi : s.inner = none) :
      Step t s ({ s with inner := some t }.move t .clearing)
  | clear (h : s.point t = .clearing) : Step t s ({ s with flag := false }.move t .releasing)
  | release (h : s.point t = .releasing) : Step t s ({ s with inner := none }.move t .notifying)
  | notifyNobody (h : s.point t = .notifying) (hs : ∀ u, s.point u ≠ .asleep) :
      Step t s (s.move t .outside)
  | notify (h : s.point t = .notifying) {u : Nat} (hu : s.point u = .asleep) :
      Step t s ((s.move u .entering).move t .outside)

theorem step_of_mem_next {t : Nat} {s s' : State} (h : s' ∈ next t s) :
    t < s.points.size ∧ Step t s s' := by
  unfold next at h
  split at h
  case isFalse => cases h
  case isTrue hlt =>
    refine ⟨hlt, ?_⟩
    cases hp : s.point t <;> rw [hp] at h
    case entering =>
      cases hi : s.inner with
      | some v => rw [hi] at h; cases h
      | none => rw [hi] at h; obtain rfl := List.mem_singleton.1 h; exact .takeToTest hp hi
    case testing =>
      cases hf : s.flag with
      | true => rw [hf] at h; obtain rfl := List.mem_singleton.1 h; exact .findSet hp hf
      | false => rw [hf] at h; obtain rfl := List.mem_singleton.1 h; exact .findClear hp hf
    case leaving =>
      cases hi : s.inner with
      | some v => rw [hi] at h; cases h
      | none => rw [hi] at h; obtain rfl := List.mem_singleton.1 h; exact .takeToClear hp hi
    case notifying =>
      cases hl : s.sleepers with
      | nil =>
        rw [hl] at h
        obtain rfl := List.mem_singleton.1 h
        refine .notifyNobody hp fun u hu => ?_
        exact List.not_mem_nil (hl ▸ State.mem_sleepers.2 hu)
      | cons v rest =>
        rw [hl] at h
        obtain ⟨u, hu, rfl⟩ := List.mem_map.1 h
        rw [← hl] at hu
        exact .notify hp (State.mem_sleepers.1 hu)
    -- The other points have one step each, whatever the state.
    all_goals obtain rfl := List.mem_singleton.1 h
    case outside => exact .enter hp
    case waiting => exact .sleep hp
    case asleep => exact .wake hp
    case setting => exact .set hp
    case finishing => exact .finish hp
    case inside => exact .count hp
    case clearing => exact .clear hp
    case releasing => exact .release hp

/-! ## What a thread relies on -/

namespace Point

/-- Between the return of `lock` and the step of `unlock` that clears the flag. -/
def holds : Point → Bool
  | inside | leaving | clearing => true
  | _ => false

/-- Between setting the flag and clearing it. -/
def owns : Point → Bool
  | finishing => true
  | p => p.holds

/-- Past clearing the flag, about to wake a sleeper. -/
def wakes : Point → Bool
  | releasing | notifying => true
  | _ => false

/-- In `lock`, awake and about to test the flag. -/
def tests : Point → Bool
  | entering | testing => true
  | _ => false

/-- Whether a thread keeps watch over those that sleep while the flag is clear. -/
def watches : Point → Bool
  | setting => true
  | p => p.wakes || p.tests

/-- What thread `t` relies on at a point, of the inner lock and of the flag. -/
def Relies (t : Nat) (inner : Option Nat) (flag : Bool) : Point → Prop
  | testing | releasing => inner = some t
  | waiting | finishing | clearing => inner = some t ∧ flag = true
  | setting => inner = some t ∧ flag = false
  | inside | leaving => flag = true
  | outside | entering | asleep | notifying => True

variable {t u : Nat} {inner : Option Nat} {flag : Bool} {q : Point}

theorem owns_of_holds (h : q.holds) : q.owns := by
  cases q <;> trivial

theorem watches_cases (h : q.watches) : q.wakes ∨ q.tests ∨ q = setting := by
  cases q <;> simp_all [watches, wakes, tests]

theorem Relies.flag_of_owns (h : q.Relies t inner flag) (ho : q.owns) : flag = true := by
  cases q <;> simp_all [Relies, owns, holds]

/-- A thread does not notice that another one takes the inner lock. -/
theorem Relies.take (h : q.Relies u none flag) : q.Relies u (some t) flag := by
  cases q <;> simp_all [Relies]

/-- A thread does not notice that another one gives the inner lock back. -/
theorem Relies.give (hne : u ≠ t) (h : q.Relies u (some t) flag) : q.Relies u none flag := by
  cases q <;> simp_all [Relies, Ne.symm hne]

/-- A thread does not notice that another one, which has the inner lock, sets the flag. -/
theorem Relies.set (hne : u ≠ t) (h : q.Relies u (some t) false) : q.Relies u (some t) true := by
  cases q <;> simp_all [Relies, Ne.symm hne]

/-- A thread that does not own the flag does not notice that another one clears it. -/
theorem Relies.clear (hne : u ≠ t) (ho : ¬ q.owns) (h : q.Relies u (some t) true) :
    q.Relies u (some t) false := by
  cases q <;> simp_all [Relies, owns, holds, Ne.symm hne]

end Point

/-! ## What every step preserves -/

/-- Each thread has what it relies on, the flag has at most one owner, and whoever sleeps while the
flag is clear is watched over. -/
structure Sound (s : State) : Prop where
  relies : ∀ t, (s.point t).Relies t s.inner s.flag
  alone : ∀ t u, (s.point t).owns → (s.point u).owns → t = u
  watched : s.flag = false → ∀ u, s.point u = .asleep → ∃ v, (s.point v).watches

namespace Sound

variable {s s' : State} {t : Nat}

/-- Moving one thread, with its changes of the inner lock and of the flag. -/
theorem moved {p : Point} {inner : Option Nat} {flag : Bool} (hs : Sound s)
    (hlt : t < s.points.size) (counter : Nat) (hown : p.Relies t inner flag)
    (hothers : ∀ u, u ≠ t → (s.point u).Relies u s.inner s.flag → (s.point u).Relies u inner flag)
    (howns : p.owns → (s.point t).owns ∨ s.flag = false)
    (hwatch : flag = false → p.watches ∨
      p ≠ .asleep ∧ ∀ u, s.point u = .asleep → ∃ v, v ≠ t ∧ (s.point v).watches) :
    Sound (State.move ⟨inner, flag, s.points, counter⟩ t p) := by
  have hpoint (u : Nat) : (State.move ⟨inner, flag, s.points, counter⟩ t p).point u =
      if u = t then p else s.point u := State.point_move hlt p u
  constructor
  case relies =>
    intro u
    rw [hpoint]
    split
    · next hu => subst hu; exact hown
    · next hu => exact hothers u hu (hs.relies u)
  case alone =>
    intro u v hu hv
    rw [hpoint] at hu hv
    refine eq_of_move hs.alone (fun ho => ?_) hu hv
    refine (howns ho).imp_right fun hf w hw => ?_
    exact absurd (hf.symm.trans ((hs.relies w).flag_of_owns hw)) (by decide)
  case watched =>
    intro hf u hu
    rw [hpoint] at hu
    rcases hwatch hf with hp | ⟨hp, hv⟩
    · exact ⟨t, by rw [hpoint, if_pos rfl]; exact hp⟩
    · split at hu
      · exact absurd hu hp
      · obtain ⟨v, hne, hv⟩ := hv u hu
        exact ⟨v, by rw [hpoint, if_neg hne]; exact hv⟩

/-- A thread that only moves on, to a point where it relies on nothing and keeps watch. -/
theorem entered (hs : Sound s) (hlt : t < s.points.size) : Sound (s.move t .entering) :=
  hs.moved hlt s.counter trivial (fun _ _ h => h) nofun fun _ => .inl rfl

theorem step (hs : Sound s) (hlt : t < s.points.size) (h : Step t s s') : Sound s' := by
  have hown := hs.relies t
  cases h with
  | enter hp => exact hs.entered hlt
  | wake hp => exact hs.entered hlt
  | takeToTest hp hi =>
    refine hs.moved hlt s.counter rfl (fun u _ hu => ?_) nofun fun _ => .inl rfl
    rw [hi] at hu
    exact hu.take
  | takeToClear hp hi =>
    rw [hp] at hown
    refine hs.moved hlt s.counter ⟨rfl, hown⟩ (fun u _ hu => ?_) (fun _ => .inl (hp ▸ rfl)) ?_
    · rw [hi] at hu
      exact hu.take
    · intro hf
      exact absurd (hown.symm.trans hf) (by decide)
  | findSet hp hf =>
    rw [hp] at hown
    refine hs.moved hlt s.counter ⟨hown, hf⟩ (fun _ _ h => h) nofun fun hf' => ?_
    exact absurd (hf.symm.trans hf') (by decide)
  | findClear hp hf =>
    rw [hp] at hown
    exact hs.moved hlt s.counter ⟨hown, hf⟩ (fun _ _ h => h) nofun fun _ => .inl rfl
  | sleep hp =>
    rw [hp] at hown
    refine hs.moved hlt s.counter trivial (fun u hne hu => ?_) nofun fun hf => ?_
    · rw [hown.1] at hu
      exact hu.give hne
    · exact absurd (hown.2.symm.trans hf) (by decide)
  | set hp =>
    rw [hp] at hown
    refine hs.moved hlt s.counter ⟨hown.1, rfl⟩ (fun u hne hu => ?_) (fun _ => .inr hown.2) nofun
    rw [hown.1, hown.2] at hu
    rw [hown.1]
    exact hu.set hne
  | finish hp =>
    rw [hp] at hown
    refine hs.moved hlt s.counter hown.2 (fun u hne hu => ?_) (fun _ => .inl (hp ▸ rfl)) ?_
    · rw [hown.1] at hu
      exact hu.give hne
    · intro hf
      exact absurd (hown.2.symm.trans hf) (by decide)
  | count hp =>
    rw [hp] at hown
    refine hs.moved hlt (s.counter + 1) hown (fun _ _ h => h) (fun _ => .inl (hp ▸ rfl)) ?_
    intro hf
    exact absurd (hown.symm.trans hf) (by decide)
  | clear hp =>
    rw [hp] at hown
    refine hs.moved hlt s.counter hown.1 (fun u hne hu => ?_) nofun fun _ => .inl rfl
    have ho : ¬ (s.point u).owns := fun ho => hne (hs.alone u t ho (hp ▸ rfl))
    rw [hown.1, hown.2] at hu
    rw [hown.1]
    exact hu.clear hne ho
  | release hp =>
    rw [hp] at hown
    refine hs.moved hlt s.counter trivial (fun u hne hu => ?_) nofun fun _ => .inl rfl
    rw [hown] at hu
    exact hu.give hne
  | notifyNobody hp hnone =>
    refine hs.moved hlt s.counter trivial (fun _ _ h => h) nofun fun _ => .inr ⟨nofun, ?_⟩
    intro u hu
    exact absurd hu (hnone u)
  | @notify hp u hu =>
    have hlt' : u < s.points.size := State.lt_size_of_point_ne (by rw [hu]; decide)
    have hne : u ≠ t := by
      rintro rfl
      rw [hp] at hu
      cases hu
    refine (hs.entered hlt').moved ?_ s.counter trivial (fun _ _ h => h) nofun
      fun _ => .inr ⟨nofun, fun _ _ => ⟨u, hne, ?_⟩⟩
    · rw [State.size_move]
      exact hlt
    · rw [State.point_move hlt', if_pos rfl]
      rfl

end Sound

theorem sound_start (threads : Nat) : Sound (start threads) := by
  have hpoint (t : Nat) : (start threads).point t = .outside := by
    rw [start, State.point, Array.getD_eq_getD_getElem?, Array.getElem?_replicate]
    split <;> rfl
  constructor
  case relies => intro t; rw [hpoint]; trivial
  case alone => intro t u ht; rw [hpoint] at ht; cases ht
  case watched => intro _ u hu; rw [hpoint] at hu; cases hu

theorem sound_of_reachable {threads : Nat} {s : State} (h : (system threads).Reachable s) :
    Sound s := by
  refine h.keeps (sound_start threads) fun hs hnext => ?_
  obtain ⟨hlt, hstep⟩ := step_of_mem_next hnext
  exact hs.step hlt hstep

/-! ## Exclusion and waking -/

/-- In every state that some interleaving reaches, at most one thread is between the return of its
`lock` and the step of its `unlock` that clears the flag, and while there is one the flag is set.
Nobody sleeps unattended while the flag is clear: some thread is about to wake a sleeper, or is awake
in `lock` and about to test the flag, or has the inner lock because it has just found the flag clear,
and sets it in its next step. -/
theorem excludes_and_wakes (threads : Nat) {s : State} (h : (system threads).Reachable s) :
    (∀ t u, (s.point t).holds → (s.point u).holds → t = u) ∧
    (∀ t, (s.point t).holds → s.flag = true) ∧
    (s.flag = false → ∀ u, s.point u = .asleep →
      (∃ t, (s.point t).wakes) ∨ (∃ t, (s.point t).tests) ∨
      ∃ t, s.point t = .setting ∧ s.inner = some t ∧
        next t s = [{ s with flag := true }.move t .finishing]) := by
  have hs : Sound s := sound_of_reachable h
  refine ⟨fun t u ht hu => ?_, fun t ht => ?_, fun hf u hu => ?_⟩
  · exact hs.alone t u (Point.owns_of_holds ht) (Point.owns_of_holds hu)
  · exact (hs.relies t).flag_of_owns (Point.owns_of_holds ht)
  · obtain ⟨v, hv⟩ := hs.watched hf u hu
    rcases Point.watches_cases hv with hv | hv | hv
    · exact .inl ⟨v, hv⟩
    · exact .inr (.inl ⟨v, hv⟩)
    · have hown := hs.relies v
      rw [hv] at hown
      have hlt : v < s.points.size := State.lt_size_of_point_ne (by rw [hv]; decide)
      refine .inr (.inr ⟨v, hv, hown.1, ?_⟩)
      rw [next, if_pos hlt, hv]

/-- Thread `0` takes the lock, `1` and `2` fall asleep over it, and `0` unlocks and wakes `1`, which
finds the flag clear. -/
def handedOver : State :=
  let S := system 3
  S.advance 1 2 (S.advance 0 5 (S.advance 2 4 (S.advance 1 4 (S.advance 0 5 S.start))))

theorem reachable_handedOver : (system 3).Reachable handedOver :=
  .advance _ (.advance _ (.advance _ (.advance _ (.advance _ .start))))

/-- Thread `2` sleeps while the flag is clear, nobody is about to wake it or to test the flag, and
thread `1` is about to set it. -/
theorem excludes_and_wakes_handedOver :
    (system 3).Reachable handedOver ∧ handedOver.flag = false ∧ handedOver.point 2 = .asleep ∧
    ((∃ t, (handedOver.point t).wakes) ∨ (∃ t, (handedOver.point t).tests) ∨
      ∃ t, handedOver.point t = .setting ∧ handedOver.inner = some t ∧
        next t handedOver = [{ handedOver with flag := true }.move t .finishing]) := by
  have hflag : handedOver.flag = false := by decide
  have hasleep : handedOver.point 2 = .asleep := by decide
  refine ⟨reachable_handedOver, hflag, hasleep, ?_⟩
  exact (excludes_and_wakes 3 reachable_handedOver).2.2 hflag 2 hasleep

/-- The threads that are about to wake a sleeper and those that are about to test the flag are not
enough: in this state there are none. -/
theorem handedOver_unwatched :
    (system 3).Reachable handedOver ∧ handedOver.flag = false ∧ handedOver.point 2 = .asleep ∧
    ¬((∃ t, (handedOver.point t).wakes) ∨ ∃ t, (handedOver.point t).tests) := by
  have hpoints : handedOver.points = #[.outside, .setting, .asleep] := by decide
  have hnobody : ∀ t, (handedOver.point t).wakes = false ∧ (handedOver.point t).tests = false := by
    intro t
    rw [State.point, hpoints]
    match t with
    | 0 | 1 | 2 => exact ⟨rfl, rfl⟩
    | t + 3 => exact ⟨rfl, rfl⟩
  refine ⟨reachable_handedOver, by decide, by decide, ?_⟩
  rintro (⟨t, ht⟩ | ⟨t, ht⟩)
  · exact absurd ht (by simp [hnobody t])
  · exact absurd ht (by simp [hnobody t])

end BatchShader.Lock.Blocking
