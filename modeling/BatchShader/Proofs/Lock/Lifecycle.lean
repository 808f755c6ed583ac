import BatchShader.Lock.Lifecycle
import BatchShader.Proofs.Sequence
import Mathlib.Data.List.Induction

/-
  One native lock for the life of a lock object.

  Whatever is asked of an object, and whichever attempts to make its native lock fail, each call of
  the platform is one that can be made: a native lock is made only when there is none, and is
  taken, given back and destroyed only while it is there. There is one exactly when the object is
  ready, so that an object at its end has destroyed each lock it has made.
-/

namespace BatchShader.Lock

/-! ## Calls of a platform -/

namespace NativeCall

/-- Whether there is a native lock after a call, if the call can be made: another lock is made only
when there is none, and only one that is there is taken, given back or destroyed. -/
def next : Bool → NativeCall → Option Bool
  | false, create made => some made
  | true, lock => some true
  | true, unlock => some true
  | true, destroy => some false
  | _, _ => none

/-- Whether there is a native lock after a sequence of calls, if each of them can be made. -/
def live? (calls : List NativeCall) : Option Bool := calls.foldlM next false

/-- A call that makes a native lock or destroys one. -/
def bounds : NativeCall → Bool
  | create made => made
  | lock => false
  | unlock => false
  | destroy => true

/-- An attempt to make a native lock. -/
def attempts : NativeCall → Bool
  | create _ => true
  | _ => false

theorem live?_append_singleton (calls : List NativeCall) (c : NativeCall) :
    live? (calls ++ [c]) = (live? calls).bind fun live => next live c := by
  simp [live?]

/-- Locks are made and destroyed in turn. -/
theorem lifetimes {calls : List NativeCall} {live : Bool} (h : live? calls = some live) :
    calls.filter bounds = (List.replicate (calls.count destroy) [create true, destroy]).flatten ++
      if live then [create true] else [] := by
  induction calls using List.reverseRecOn generalizing live with
  | nil =>
    cases h
    rfl
  | append_singleton calls c ih =>
    rw [live?_append_singleton] at h
    obtain ⟨before, hbefore, h⟩ := Option.bind_eq_some_iff.1 h
    rw [List.filter_append, ih hbefore, List.count_append]
    cases before with
    | false =>
      cases c with
      | create =>
        cases h
        cases live <;> simp [bounds]
      | _ => cases h
    | true =>
      cases c with
      | create => cases h
      | destroy =>
        cases h
        simp [bounds, List.replicate_succ']
      | _ =>
        cases h
        simp [bounds]

/-- There is a native lock exactly when one more has been made than destroyed. -/
theorem count_create {calls : List NativeCall} {live : Bool} (h : live? calls = some live) :
    calls.count (create true) = calls.count destroy + if live then 1 else 0 := by
  rw [← List.count_filter (p := bounds) rfl, lifetimes h, List.count_append]
  cases live <;> simp [List.count_flatten]

end NativeCall

namespace Lifecycle

open Stateful

/-! ## What an operation does -/

/-- What an operation leaves behind, whether it goes through or not. -/
def after (l : Lifecycle) (c : Command) : Lifecycle := final (perform c) l

/-- Why an operation does not go through, if it does not. -/
def fault? (l : Lifecycle) (c : Command) : Option Fault :=
  match (perform c).run l with
  | .ok _ _ => none
  | .error f _ => some f

/-- An operation that needs the native lock. -/
inductive Command.Uses : Command → Prop
  | enter : Uses .enter
  | leave : Uses .leave
  | critical (bodyFails : Bool) : Uses (.critical bodyFails)

/-- The object after one more call of the platform that leaves the native lock in its place. -/
def called (l : Lifecycle) (c : NativeCall) : Lifecycle := { l with calls := l.calls ++ [c] }

/-- What an operation can do: whether it goes through, and what it leaves behind. -/
inductive Effect (l : Lifecycle) : Command → Option Fault → Lifecycle → Prop
  | keep (h : l.ready = true) : Effect l .makeReady none l
  | make (h : l.ready = false) (hf : l.failures.headD false = false) :
      Effect l .makeReady none
        { ready := true, failures := l.failures.tail, calls := l.calls ++ [.create true] }
  | failToMake (h : l.ready = false) (hf : l.failures.headD false = true) :
      Effect l .makeReady (some (.notMade scriptedFailure))
        { ready := false, failures := l.failures.tail, calls := l.calls ++ [.create false] }
  | enter (h : l.ready = true) : Effect l .enter none (l.called .lock)
  | leave (h : l.ready = true) : Effect l .leave none (l.called .unlock)
  | critical (h : l.ready = true) (bodyFails : Bool) :
      Effect l (.critical bodyFails) (if bodyFails then some .bodyFailed else none)
        ((l.called .lock).called .unlock)
  | misuse (h : l.ready = false) {c : Command} (hc : c.Uses) : Effect l c (some .notReady) l
  | destroy (h : l.ready = true) :
      Effect l .cleanup none { l with ready := false, calls := l.calls ++ [.destroy] }
  | spare (h : l.ready = false) : Effect l .cleanup none l
  | observe : Effect l .observe none l

theorem effect (l : Lifecycle) (c : Command) : Effect l c (l.fault? c) (l.after c) := by
  obtain ⟨ready, failures, calls⟩ := l
  cases c with
  | makeReady =>
    cases ready with
    | true => exact .keep rfl
    | false =>
      match failures with
      | [] => exact .make rfl rfl
      | false :: rest => exact .make rfl rfl
      | true :: rest => exact .failToMake rfl rfl
  | enter =>
    cases ready with
    | true => exact .enter rfl
    | false => exact .misuse rfl .enter
  | leave =>
    cases ready with
    | true => exact .leave rfl
    | false => exact .misuse rfl .leave
  | critical bodyFails =>
    cases ready with
    | true =>
      have h := Effect.critical (l := ⟨true, failures, calls⟩) rfl bodyFails
      cases bodyFails <;> exact h
    | false => exact .misuse rfl (.critical bodyFails)
  | cleanup =>
    cases ready with
    | true => exact .destroy rfl
    | false => exact .spare rfl
  | observe => exact .observe

theorem run_callNative {l : Lifecycle} (h : l.ready = true) (c : NativeCall) :
    (callNative c).run l = .ok () (l.called c) := by
  obtain ⟨ready, failures, calls⟩ := l
  cases h
  rfl

theorem run_callNative_of_not_ready {l : Lifecycle} (h : l.ready = false) (c : NativeCall) :
    (callNative c).run l = .error .notReady l := by
  obtain ⟨ready, failures, calls⟩ := l
  cases h
  rfl

theorem run_critical_of_not_ready {α : Type} {l : Lifecycle} (body : LifecycleAction α)
    (h : l.ready = false) : (critical body).run l = .error .notReady l :=
  run_bind_eq_error.2 (.inl (run_callNative_of_not_ready h .lock))

/-- A section that is entered is left, however its body ends, and ends as its body does. The body
has the object only to share, and so cannot destroy the native lock. -/
theorem run_critical {α : Type} {l m : Lifecycle} (body : LifecycleAction α) (hl : l.ready = true)
    (hm : m.ready = true) :
    (∀ a, body.run (l.called .lock) = .ok a m →
      (critical body).run l = .ok a (m.called .unlock)) ∧
    ∀ f, body.run (l.called .lock) = .error f m →
      (critical body).run l = .error f (m.called .unlock) := by
  constructor
  · intro a hbody
    exact run_bind_eq_ok.2
      ⟨(), _, run_callNative hl .lock, run_tryFinally_of_ok hbody (run_callNative hm .unlock)⟩
  · intro f hbody
    exact run_bind_eq_error.2 (.inr
      ⟨(), _, run_callNative hl .lock, run_tryFinally_of_error hbody (run_callNative hm .unlock)⟩)

theorem makeReady_of_ready {l : Lifecycle} (h : l.ready = true) :
    l.fault? .makeReady = none ∧ l.after .makeReady = l := by
  have e := effect l .makeReady
  generalize l.fault? .makeReady = f, l.after .makeReady = m at e ⊢
  cases e with
  | keep => exact ⟨rfl, rfl⟩
  | make h' | failToMake h' => simp [h] at h'
  | misuse _ hc => cases hc

/-! ## What each operation keeps -/

theorem live?_called {l : Lifecycle} {live live' : Bool} (h : NativeCall.live? l.calls = some live)
    {c : NativeCall} (hc : NativeCall.next live c = some live') :
    NativeCall.live? (l.calls ++ [c]) = some live' := by
  rw [NativeCall.live?_append_singleton, h]
  exact hc

/-- Each operation makes only calls that can be made. -/
theorem live?_after {l : Lifecycle} (h : NativeCall.live? l.calls = some l.ready) (c : Command) :
    NativeCall.live? (l.after c).calls = some (l.after c).ready := by
  have e := effect l c
  generalize l.fault? c = f, l.after c = m at e ⊢
  cases e with
  | keep => exact h
  | make hready | failToMake hready | destroy hready =>
    rw [hready] at h
    exact live?_called h rfl
  | enter hready | leave hready =>
    change _ = some l.ready
    rw [hready] at h ⊢
    exact live?_called h rfl
  | critical hready =>
    change _ = some l.ready
    rw [hready] at h ⊢
    exact live?_called (l := l.called .lock) (live?_called h rfl) rfl
  | misuse => exact h
  | spare => exact h
  | observe => exact h

/-- Each attempt to make a native lock takes the next of the outcomes that are listed. -/
theorem failures_after {failures : List Bool} {l : Lifecycle}
    (h : l.failures = failures.drop (l.calls.countP NativeCall.attempts)) (c : Command) :
    (l.after c).failures = failures.drop ((l.after c).calls.countP NativeCall.attempts) := by
  have e := effect l c
  generalize l.fault? c = f, l.after c = m at e ⊢
  cases e with
  | make | failToMake =>
    rw [List.countP_append, h, List.tail_drop]
    rfl
  | enter | leave | critical | destroy => simpa [called, NativeCall.attempts] using h
  | keep | misuse | spare | observe => exact h

/-- An object is ready when its native lock has just been made, and for as long as it is not
cleaned up. -/
theorem ready_after (l : Lifecycle) (c : Command) :
    (l.after c).ready = true ↔
      (c = .makeReady ∧ l.fault? c = none) ∨ (c ≠ .cleanup ∧ l.ready = true) := by
  have e := effect l c
  generalize l.fault? c = f, l.after c = m at e ⊢
  cases e with
  | keep h | make h | failToMake h | enter h | leave h | critical h | destroy h | spare h =>
    simp [called, h]
  | misuse h hc => cases hc <;> simp [h]
  | observe => simp

/-! ## Sequences of operations -/

/-- The object after a sequence of operations. -/
def run (failures : List Bool) (commands : List Command) : Lifecycle :=
  commands.foldl after (new failures)

variable (failures : List Bool) (commands : List Command)

theorem run_append_singleton (c : Command) :
    run failures (commands ++ [c]) = (run failures commands).after c := by
  rw [run, List.foldl_append]
  rfl

/-- What each operation keeps, a sequence of them keeps. -/
theorem run_keeps {P : Lifecycle → Prop} (start : P (new failures))
    (step : ∀ l c, P l → P (l.after c)) : P (run failures commands) := by
  induction commands using List.reverseRecOn with
  | nil => exact start
  | append_singleton commands c ih =>
    rw [run_append_singleton]
    exact step _ c ih

/-- The native lock has been made, and the object has not been cleaned up since. -/
def Made : Prop :=
  ∃ before rest, commands = before ++ .makeReady :: rest ∧
    (run failures before).fault? .makeReady = none ∧ .cleanup ∉ rest

theorem made_append_singleton (c : Command) :
    Made failures (commands ++ [c]) ↔
      (c = .makeReady ∧ (run failures commands).fault? c = none) ∨
        (c ≠ .cleanup ∧ Made failures commands) := by
  constructor
  · rintro ⟨before, rest, h, hmade, hrest⟩
    -- The last operation is the making itself, or comes after it.
    cases rest using List.reverseRecOn with
    | nil =>
      obtain ⟨rfl, hlast⟩ := List.append_inj' h rfl
      cases hlast
      exact .inl ⟨rfl, hmade⟩
    | append_singleton rest d =>
      rw [← List.cons_append, ← List.append_assoc] at h
      obtain ⟨rfl, hlast⟩ := List.append_inj' h rfl
      cases hlast
      refine .inr ⟨?_, before, rest, rfl, hmade, ?_⟩
      · rintro rfl
        exact hrest (List.mem_append_right _ List.mem_cons_self)
      · intro hcleanup
        exact hrest (List.mem_append_left _ hcleanup)
  · rintro (⟨rfl, hmade⟩ | ⟨hc, before, rest, rfl, hmade, hrest⟩)
    · exact ⟨commands, [], rfl, hmade, List.not_mem_nil⟩
    · refine ⟨before, rest ++ [c], by simp, hmade, ?_⟩
      rw [List.mem_append, List.mem_singleton]
      rintro (h | h)
      · exact hrest h
      · exact hc h.symm

theorem ready_iff_made : (run failures commands).ready = true ↔ Made failures commands := by
  induction commands using List.reverseRecOn with
  | nil =>
    constructor
    · intro h
      cases h
    · rintro ⟨before, rest, h, -⟩
      cases before <;> cases h
  | append_singleton commands c ih =>
    rw [run_append_singleton, ready_after, made_append_singleton, ih]

theorem live?_run :
    NativeCall.live? (run failures commands).calls = some (run failures commands).ready :=
  run_keeps (P := fun l => NativeCall.live? l.calls = some l.ready) failures commands rfl
    fun _ c h => live?_after h c

theorem failures_run :
    (run failures commands).failures =
      failures.drop ((run failures commands).calls.countP NativeCall.attempts) :=
  run_keeps (P := fun l => l.failures = failures.drop (l.calls.countP NativeCall.attempts))
    failures commands rfl fun _ c h => failures_after h c

/-! ## One native lock -/

/-- An object has one native lock when it is ready and none when it is not, on a platform whose
attempts to make one fail as listed. -/
structure OwnsOne (failures : List Bool) (l : Lifecycle) : Prop where
  /-- Every call of the platform can be made: no second lock is made, and none that is not there is
  taken, given back or destroyed. -/
  allowed : NativeCall.live? l.calls = some l.ready
  /-- Of the locks that have been made, those not destroyed are one or none. -/
  live : l.calls.count (.create true) = l.calls.count .destroy + if l.ready then 1 else 0
  /-- At its end the object has destroyed each lock it has made, before making another. -/
  ended : (l.after .cleanup).ready = false ∧
    (l.after .cleanup).calls.filter NativeCall.bounds =
      (List.replicate (l.calls.count (.create true)) [.create true, .destroy]).flatten
  /-- Nothing is made when there is a lock. -/
  kept : l.ready = true → l.fault? .makeReady = none ∧ l.after .makeReady = l
  /-- When there is none, one is made afresh, by the next of the attempts. If that fails, there is
  still none. -/
  made : l.ready = false →
    let fails := failures.getD (l.calls.countP NativeCall.attempts) false
    l.fault? .makeReady = (if fails then some (.notMade scriptedFailure) else none) ∧
      (l.after .makeReady).ready = !fails ∧
      (l.after .makeReady).calls = l.calls ++ [.create !fails]
  /-- An object that is ready can be entered and left. -/
  used : l.ready = true →
    enter.run l = .ok () (l.called .lock) ∧ leave.run l = .ok () (l.called .unlock)
  /-- One that is not refuses to be, and does not change. -/
  refused : l.ready = false →
    enter.run l = .error .notReady l ∧ leave.run l = .error .notReady l ∧
      ∀ {α : Type} (body : LifecycleAction α), (critical body).run l = .error .notReady l
  /-- A section that is entered is left once, after its body and whichever way the body ends. -/
  sections : l.ready = true → ∀ {α : Type} (body : LifecycleAction α) (m : Lifecycle),
    m.ready = true →
      (∀ a, body.run (l.called .lock) = .ok a m →
        (critical body).run l = .ok a (m.called .unlock)) ∧
      ∀ f, body.run (l.called .lock) = .error f m →
        (critical body).run l = .error f (m.called .unlock)

theorem after_cleanup {l : Lifecycle} (h : NativeCall.live? l.calls = some l.ready) :
    (l.after .cleanup).ready = false ∧
      (l.after .cleanup).calls.filter NativeCall.bounds =
        (List.replicate (l.calls.count (.create true)) [.create true, .destroy]).flatten := by
  have hlife := NativeCall.lifetimes (live?_after h .cleanup)
  have hcount := NativeCall.count_create h
  have e := effect l .cleanup
  generalize l.fault? .cleanup = f, l.after .cleanup = m at e hlife ⊢
  cases e with
  | misuse _ hc => cases hc
  | destroy hready =>
    refine ⟨rfl, hlife.trans ?_⟩
    simp [hcount, hready]
  | spare hready =>
    refine ⟨hready, hlife.trans ?_⟩
    simp [hcount, hready]

theorem after_makeReady {l : Lifecycle}
    (h : l.failures = failures.drop (l.calls.countP NativeCall.attempts))
    (hready : l.ready = false) :
    let fails := failures.getD (l.calls.countP NativeCall.attempts) false
    l.fault? .makeReady = (if fails then some (.notMade scriptedFailure) else none) ∧
      (l.after .makeReady).ready = !fails ∧
      (l.after .makeReady).calls = l.calls ++ [.create !fails] := by
  have hnext : l.failures.headD false =
      failures.getD (l.calls.countP NativeCall.attempts) false := by
    rw [h, List.headD_eq_head?_getD, List.head?_drop, List.getD_eq_getElem?_getD]
  intro fails
  have e := effect l .makeReady
  generalize l.fault? .makeReady = f, l.after .makeReady = m at e ⊢
  cases e with
  | keep h' => exact absurd h' (by simp [hready])
  | make _ hf =>
    have hfails : fails = false := hnext.symm.trans hf
    simp [hfails]
  | failToMake _ hf =>
    have hfails : fails = true := hnext.symm.trans hf
    simp [hfails]
  | misuse _ hc => cases hc

/-- Whatever is asked of an object, it is ready from the making of its native lock to the next
cleaning up, and that is when it has one. -/
theorem owns_one_while_made :
    OwnsOne failures (run failures commands) ∧
      ((run failures commands).ready = true ↔ Made failures commands) := by
  refine ⟨?_, ready_iff_made failures commands⟩
  have hlive := live?_run failures commands
  have hfailures := failures_run failures commands
  generalize run failures commands = l at hlive hfailures
  exact {
    allowed := hlive
    live := NativeCall.count_create hlive
    ended := after_cleanup hlive
    kept := fun h => makeReady_of_ready h
    made := after_makeReady failures hfailures
    used := fun h => ⟨run_callNative h .lock, run_callNative h .unlock⟩
    refused := fun h => ⟨run_callNative_of_not_ready h .lock, run_callNative_of_not_ready h .unlock,
      fun body => run_critical_of_not_ready body h⟩
    sections := fun h α body m hm => run_critical body h hm }

example : (run [true] [.enter, .makeReady, .makeReady, .critical true, .cleanup, .cleanup]).calls =
    [.create false, .create true, .lock, .unlock, .destroy] := by decide

end Lifecycle

end BatchShader.Lock
