import BatchShader.Lock.LazyCell
import Mathlib.Data.List.Induction
import Mathlib.Tactic.Common

/-
  A value that is built on first use is built once, whatever the interleaving.

  `Move` lists what a step can be. `Knows` says what a thread may rely on at each point of a call:
  while it makes the native lock, that the phase is `underway`; while it has the native lock, that
  the lock is taken; and once it has seen or published the value, that the cell holds it. No two
  threads make the native lock at once and no two have it at once, so that the steps of one thread
  never take from another what that one relies on. `Sound` puts this together; every step preserves
  it (`Sound.step`).

  What a whole interleaving did is read off its steps: `published` are the values that it published
  and `results` what its calls returned. `builds_once` holds of every interleaving.
-/

namespace BatchShader.Lock.LazyCell

variable {α : Type} {build : Nat → Outcome α} {failures : List Bool}

/-! ## Steps -/

/-- What a step of a thread may be: where it comes from and what it finds, where it goes and what it
leaves. -/
inductive Move (build : Nat → Outcome α) : Point α → Shared α → Point α → Shared α → Prop
  | call {s} : Move build .idle s .looking s
  | see {s v} (h : s.cell = some v) : Move build .looking s (.finished (.ok v)) s
  | miss {s} (h : s.cell = none) : Move build .looking s .exchanging s
  | claim {s} (h : s.phase = .absent) :
      Move build .exchanging s .creating { s with phase := .underway }
  | pass {s} (h : s.phase = .present) : Move build .exchanging s .locking s
  | create {s} (h : s.failures.headD false = false) :
      Move build .creating s .storing
        { s with failures := s.failures.tail, calls := s.calls ++ [.create true] }
  | failToCreate {s} (h : s.failures.headD false = true) :
      Move build .creating s (.abandoning scriptedFailure)
        { s with failures := s.failures.tail, calls := s.calls ++ [.create false] }
  | store {s} : Move build .storing s .announcing { s with stored := true }
  | announce {s} : Move build .announcing s .locking { s with phase := .present }
  | abandon {s e} :
      Move build (.abandoning e) s (.finished (Outcome.fail (.lockInit e)))
        { s with phase := .absent }
  | misuseToLock {s} (h : s.phase ≠ .present) : Move build .locking s .misused s
  | lock {s} (h : s.phase = .present) (hh : s.held = false) :
      Move build .locking s .rechecking { s with held := true, calls := s.calls ++ [.lock] }
  | seeAgain {s v} (h : s.cell = some v) : Move build .rechecking s (.unlocking (.ok v)) s
  | missAgain {s} (h : s.cell = none) : Move build .rechecking s .building s
  | publish {s v} (h : build s.attempts = .ok v) :
      Move build .building s (.unlocking (.ok (s.cell.getD v)))
        { s with attempts := s.attempts + 1, cell := some (s.cell.getD v) }
  | failToBuild {s e} (h : build s.attempts = .error e) :
      Move build .building s (.unlocking (.error e)) { s with attempts := s.attempts + 1 }
  | misuseToUnlock {s r} (h : s.phase ≠ .present) : Move build (.unlocking r) s .misused s
  | unlock {s r} (h : s.phase = .present) :
      Move build (.unlocking r) s (.finished r)
        { s with held := false, calls := s.calls ++ [.unlock] }
  | retire {s r} : Move build (.finished r) s .idle s

theorem move_of_step {p p' : Point α} {s s' : Shared α} (h : step build p s = some (p', s')) :
    Move build p s p' s' := by
  cases p with
  | idle => cases h; exact .call
  | looking =>
    rw [step] at h
    split at h
    · next hc => cases h; exact .see hc
    · next hc => cases h; exact .miss hc
  | exchanging =>
    rw [step] at h
    split at h
    · next hp => cases h; exact .claim hp
    · cases h
    · next hp => cases h; exact .pass hp
  | creating =>
    rw [step] at h
    cases hf : s.failures.headD false with
    | false => rw [hf] at h; cases h; exact .create hf
    | true => rw [hf] at h; cases h; exact .failToCreate hf
  | storing => cases h; exact .store
  | announcing => cases h; exact .announce
  | abandoning e => cases h; exact .abandon
  | locking =>
    rw [step] at h
    split at h
    · next hp => cases h; exact .misuseToLock hp
    · next hp =>
      split at h
      · cases h
      · next hh => cases h; exact .lock (not_not.1 hp) (Bool.eq_false_iff.2 hh)
  | rechecking =>
    rw [step] at h
    split at h
    · next hc => cases h; exact .seeAgain hc
    · next hc => cases h; exact .missAgain hc
  | building =>
    simp only [step] at h
    split at h
    · next hb => cases h; exact .publish hb
    · next hb => cases h; exact .failToBuild hb
  | unlocking r =>
    rw [step] at h
    split at h
    · next hp => cases h; exact .misuseToUnlock hp
    · next hp => cases h; exact .unlock (not_not.1 hp)
  | finished r => cases h; exact .retire
  | misused => cases h

theorem move_of_mem_next {t : Nat} {s s' : State α} (h : s' ∈ (system build failures).next t s) :
    ∃ p shared, s' = ⟨fun u => if u = t then p else s.points u, shared⟩ ∧
      Move build (s.points t) s.shared p shared := by
  simp only [system] at h
  split at h
  · next p shared hstep =>
    exact ⟨p, shared, List.mem_singleton.1 h, move_of_step hstep⟩
  · cases h

/-! ## What a thread relies on -/

/-- How often the native lock has been made. -/
def Shared.made (s : Shared α) : Nat := s.calls.count (.create true)

/-- What holds of the shared state whoever is where. -/
structure Shared.Sound (s : Shared α) : Prop where
  made_le : s.made ≤ 1
  made_eq_zero : s.phase = .absent → s.made = 0
  stored : s.phase = .present → s.stored = true
  unused : s.phase ≠ .present → s.cell = none ∧ s.held = false

namespace Shared

variable {s s' : Shared α}

theorem made_of_create (h : s'.calls = s.calls ++ [.create true]) : s'.made = s.made + 1 := by
  rw [made, made, h, List.count_append, List.count_singleton_self]

theorem made_of_ne {c : NativeCall} (h : s'.calls = s.calls ++ [c]) (hc : .create true ≠ c) :
    s'.made = s.made := by
  rw [made, made, h, List.count_append, List.count_singleton, if_neg (by simpa using hc.symm),
    Nat.add_zero]

/-- A step before the native lock is announced. -/
theorem Sound.of_not_present (hs : s.Sound) (hp : s.phase ≠ .present) (hp' : s'.phase ≠ .present)
    (hc : s'.cell = s.cell) (hh : s'.held = s.held) (hm : s'.made ≤ 1)
    (hz : s'.phase = .absent → s'.made = 0) : s'.Sound where
  made_le := hm
  made_eq_zero := hz
  stored h := absurd h hp'
  unused _ := by rw [hc, hh]; exact hs.unused hp

/-- A step once the native lock is announced, which makes no other. -/
theorem Sound.of_present (hs : s.Sound) (hp : s'.phase = .present) (hst : s'.stored = true)
    (hm : s'.made = s.made) : s'.Sound where
  made_le := hm ▸ hs.made_le
  made_eq_zero h := by rw [hp] at h; cases h
  stored _ := hst
  unused h := absurd hp h

end Shared

namespace Point

/-- Between winning the exchange and announcing the native lock or giving up. -/
def makes : Point α → Bool
  | creating | storing | announcing | abandoning _ => true
  | _ => false

/-- Between taking the native lock and giving it back. -/
def locks : Point α → Bool
  | rechecking | building | unlocking _ => true
  | _ => false

/-- About to take the native lock, or until it has been given back. -/
def usesNative : Point α → Bool
  | locking => true
  | p => p.locks

/-- What a thread relies on at a point. -/
def Knows (s : Shared α) : Point α → Prop
  | idle | looking | exchanging => True
  | creating | abandoning _ => s.phase = .underway ∧ s.made = 0
  | storing => s.phase = .underway
  | announcing => s.phase = .underway ∧ s.stored = true
  | locking => s.phase = .present
  | rechecking | unlocking (.error _) => s.phase = .present ∧ s.held = true
  | building => s.phase = .present ∧ s.held = true ∧ s.cell = none
  | unlocking (.ok v) => s.phase = .present ∧ s.held = true ∧ s.cell = some v
  | finished (.ok v) => s.cell = some v
  | finished (.error _) => True
  | misused => False

variable {s s' : Shared α} {q : Point α}

theorem Knows.phase_of_makes (h : q.Knows s) (hq : q.makes) : s.phase = .underway := by
  cases q <;> simp_all [Knows, makes]

theorem Knows.held_of_locks (h : q.Knows s) (hq : q.locks) : s.held = true := by
  cases q with
  | unlocking r => cases r <;> simp_all [Knows]
  | _ => simp_all [Knows, locks]

theorem Knows.phase_of_usesNative (h : q.Knows s) (hq : q.usesNative) : s.phase = .present := by
  cases q with
  | unlocking r => cases r <;> simp_all [Knows]
  | _ => simp_all [Knows, usesNative, locks]

/-- Until the native lock is announced, a thread that is not making it relies on the cell only. -/
theorem Knows.of_not_present (h : q.Knows s) (hp : s.phase ≠ .present) (hq : ¬ q.makes)
    (hc : s'.cell = s.cell) : q.Knows s' := by
  cases q with
  | finished r => cases r <;> simp_all [Knows]
  | unlocking r => cases r <;> simp_all [Knows]
  | _ => simp_all [Knows, makes]

/-- Once the native lock is announced, a thread that does not have it relies on the phase and on
what is in the cell. -/
theorem Knows.of_present (h : q.Knows s) (hp : s.phase = .present) (hq : ¬ q.locks)
    (hp' : s'.phase = .present) (hc : ∀ v, s.cell = some v → s'.cell = some v) : q.Knows s' := by
  cases q with
  | finished r => cases r <;> simp_all [Knows]
  | _ => simp_all [Knows, locks]

end Point

/-! ## What every step preserves -/

/-- The shared state is sound, each thread has what it relies on, no two threads make the native
lock, and no two have it. -/
structure Sound (s : State α) : Prop where
  shared : s.shared.Sound
  knows : ∀ t, (s.points t).Knows s.shared
  maker : ∀ t u, (s.points t).makes → (s.points u).makes → t = u
  holder : ∀ t u, (s.points t).locks → (s.points u).locks → t = u

/-- The step of a thread keeps the shared state sound, and takes the thread to where it has what it
relies on. -/
theorem Move.own {p p' : Point α} {s s' : Shared α} (h : Move build p s p' s') (hs : s.Sound)
    (hp : p.Knows s) : s'.Sound ∧ p'.Knows s' := by
  cases h with
  | call => exact ⟨hs, trivial⟩
  | see hc => exact ⟨hs, hc⟩
  | miss hc => exact ⟨hs, trivial⟩
  | retire => exact ⟨hs, trivial⟩
  | pass hph => exact ⟨hs, hph⟩
  | seeAgain hc => exact ⟨hs, hp.1, hp.2, hc⟩
  | missAgain hc => exact ⟨hs, hp.1, hp.2, hc⟩
  | misuseToLock hph => exact absurd hp hph
  | misuseToUnlock hph => exact absurd (hp.phase_of_usesNative rfl) hph
  | claim hph =>
    have hmade : s.made = 0 := hs.made_eq_zero hph
    exact ⟨hs.of_not_present (by rw [hph]; decide) nofun rfl rfl hs.made_le nofun, rfl, hmade⟩
  | create =>
    obtain ⟨hph, hmade⟩ := hp
    refine ⟨hs.of_not_present (by rw [hph]; decide) (by rw [hph]; decide) rfl rfl ?_ ?_, hph⟩
    · refine Nat.le_of_eq ?_
      rw [Shared.made_of_create rfl, hmade]
    · intro h
      exact absurd (hph.symm.trans h) (by decide)
  | @failToCreate s hf =>
    obtain ⟨hph, hmade⟩ := hp
    have hmade' : Shared.made { s with
        failures := s.failures.tail, calls := s.calls ++ [.create false] } = 0 :=
      (Shared.made_of_ne rfl (by decide)).trans hmade
    exact ⟨hs.of_not_present (by rw [hph]; decide) (by rw [hph]; decide) rfl rfl
      (hmade' ▸ Nat.zero_le 1) fun _ => hmade', hph, hmade'⟩
  | store =>
    refine ⟨hs.of_not_present (by rw [hp]; decide) (by rw [hp]; decide) rfl rfl hs.made_le ?_,
      hp, rfl⟩
    intro h
    exact absurd (hp.symm.trans h) (by decide)
  | announce => exact ⟨hs.of_present rfl hp.2 rfl, rfl⟩
  | abandon =>
    obtain ⟨hph, hmade⟩ := hp
    exact ⟨hs.of_not_present (by rw [hph]; decide) nofun rfl rfl hs.made_le fun _ => hmade, trivial⟩
  | lock hph hh =>
    exact ⟨hs.of_present hph (hs.stored hph) (Shared.made_of_ne rfl (by decide)), hph, rfl⟩
  | publish hb =>
    obtain ⟨hph, hh, -⟩ := hp
    exact ⟨hs.of_present hph (hs.stored hph) rfl, hph, hh, rfl⟩
  | failToBuild hb => exact ⟨hs.of_present hp.1 (hs.stored hp.1) rfl, hp.1, hp.2.1⟩
  | @unlock s r hph =>
    refine ⟨hs.of_present hph (hs.stored hph) (Shared.made_of_ne rfl (by decide)), ?_⟩
    cases r with
    | ok v => exact hp.2.2
    | error e => trivial

/-- A thread does not notice the step of another one, unless both make the native lock or both have
it. -/
theorem Move.others {p p' q : Point α} {s s' : Shared α} (h : Move build p s p' s')
    (hp : p.Knows s) (hmakes : p.makes → ¬ q.makes) (hlocks : p.locks → ¬ q.locks)
    (hq : q.Knows s) : q.Knows s' := by
  have hmaking (hm : p.makes) (hc : s'.cell = s.cell) : q.Knows s' := by
    refine hq.of_not_present ?_ (hmakes hm) hc
    rw [hp.phase_of_makes hm]
    decide
  cases h with
  | call | see | miss | pass | misuseToLock | seeAgain | missAgain | misuseToUnlock | retire =>
    exact hq
  | claim hph =>
    refine hq.of_not_present (by rw [hph]; decide) (fun hm => ?_) rfl
    exact absurd (hph.symm.trans (hq.phase_of_makes hm)) (by decide)
  | create | failToCreate | store | announce | abandon => exact hmaking rfl rfl
  | lock hph hh =>
    refine hq.of_present hph (fun hl => ?_) hph fun _ hc => hc
    exact absurd (hh.symm.trans (hq.held_of_locks hl)) (by decide)
  | publish hb =>
    refine hq.of_present hp.1 (hlocks rfl) hp.1 fun v hc => ?_
    rw [hp.2.2] at hc
    cases hc
  | failToBuild hb => exact hq.of_present hp.1 (hlocks rfl) hp.1 fun _ hc => hc
  | unlock hph => exact hq.of_present hph (hlocks rfl) hph fun _ hc => hc

/-- Only a thread that makes the native lock goes on making it, or one that finds the phase absent
begins to. -/
theorem Move.makes_or {p p' : Point α} {s s' : Shared α} (h : Move build p s p' s') (hp : p'.makes) :
    p.makes ∨ s.phase = .absent := by
  cases h with
  | claim hph => exact .inr hph
  | create | failToCreate | store => exact .inl rfl
  | _ => cases hp

theorem Move.locks_or {p p' : Point α} {s s' : Shared α} (h : Move build p s p' s') (hp : p'.locks) :
    p.locks ∨ s.held = false := by
  cases h with
  | lock hph hh => exact .inr hh
  | seeAgain | missAgain | publish | failToBuild => exact .inl rfl
  | _ => cases hp

theorem Sound.step {t : Nat} {s s' : State α} (hs : Sound s)
    (h : s' ∈ (system build failures).next t s) : Sound s' := by
  obtain ⟨p, shared, rfl, hmove⟩ := move_of_mem_next h
  obtain ⟨hshared, hown⟩ := hmove.own hs.shared (hs.knows t)
  constructor
  case shared => exact hshared
  case knows =>
    intro u
    show (if u = t then p else s.points u).Knows shared
    split
    · exact hown
    · next hne =>
      refine hmove.others (hs.knows t) (fun ht hu => hne ?_) (fun ht hu => hne ?_) (hs.knows u)
      · exact hs.maker u t hu ht
      · exact hs.holder u t hu ht
  case maker =>
    refine fun u v hu hv => eq_of_move hs.maker (fun hp => ?_) hu hv
    refine (hmove.makes_or hp).imp_right fun hph w hw => ?_
    exact absurd (hph.symm.trans ((hs.knows w).phase_of_makes hw)) (by decide)
  case holder =>
    refine fun u v hu hv => eq_of_move hs.holder (fun hp => ?_) hu hv
    refine (hmove.locks_or hp).imp_right fun hh w hw => ?_
    exact absurd (hh.symm.trans ((hs.knows w).held_of_locks hw)) (by decide)

theorem sound_start (failures : List Bool) : Sound (⟨fun _ => .idle, .start failures⟩ : State α) where
  shared := ⟨Nat.zero_le 1, fun _ => rfl, nofun, fun _ => ⟨rfl, rfl⟩⟩
  knows _ := trivial
  maker _ _ := nofun
  holder _ _ := nofun

theorem sound_of_reachable {s : State α} (h : (system build failures).Reachable s) : Sound s :=
  h.keeps (sound_start failures) fun hs hnext => hs.step hnext

/-! ## What an interleaving did -/

/-- The value that a thread publishes by going from one point to another. -/
def Point.published? : Point α → Point α → Option α
  | building, unlocking (.ok v) => some v
  | _, _ => none

/-- The value in the cell is the one that has been published. -/
theorem Move.cell_eq {p p' : Point α} {s s' : Shared α} (h : Move build p s p' s')
    (hp : p.Knows s) : s'.cell.toList = s.cell.toList ++ (p.published? p').toList := by
  cases h with
  | publish hb =>
    rw [hp.2.2]
    rfl
  | _ => exact (List.append_nil _).symm

/-- Nothing replaces the value in the cell. -/
theorem Move.cell_eq_some {p p' : Point α} {s s' : Shared α} (h : Move build p s p' s')
    (hp : p.Knows s) {v : α} (hc : s.cell = some v) : s'.cell = some v := by
  cases h with
  | publish hb =>
    rw [hp.2.2] at hc
    cases hc
  | _ => exact hc

section History

/-- Where the thread of a step comes from. -/
def origin (e : (system build failures).Step) : Point α := (e.before : State α).points e.thread

/-- Where the thread of a step goes. -/
def target (e : (system build failures).Step) : Point α := (e.after : State α).points e.thread

/-- The values that some steps publish. -/
def published (steps : List (system build failures).Step) : List α :=
  steps.filterMap fun e => (origin e).published? (target e)

/-- What the calls that end in some steps return. -/
def results (steps : List (system build failures).Step) : List (Outcome α) :=
  steps.filterMap fun e =>
    match target e with
    | .finished r => some r
    | _ => none

variable {steps : List (system build failures).Step} {e : (system build failures).Step}

theorem published_append (steps : List (system build failures).Step)
    (e : (system build failures).Step) :
    published (steps ++ [e]) = published steps ++ ((origin e).published? (target e)).toList := by
  rw [published, List.filterMap_append]
  cases h : (origin e).published? (target e) <;> simp [published, h]

theorem mem_results_append {r : Outcome α} :
    r ∈ results (steps ++ [e]) ↔ r ∈ results steps ∨ target e = .finished r := by
  rw [results, List.filterMap_append, List.mem_append]
  refine or_congr_right ?_
  rw [List.mem_filterMap]
  simp only [List.mem_singleton, exists_eq_left]
  split <;> simp_all

theorem move_of_next {t : Nat} {s s' : State α} (h : s' ∈ (system build failures).next t s) :
    let e : (system build failures).Step := ⟨t, s, s'⟩
    Move build (origin e) s.shared (target e) s'.shared := by
  obtain ⟨p, shared, rfl, hmove⟩ := move_of_mem_next h
  have htarget : (if t = t then p else s.points t) = p := if_pos rfl
  show Move build (s.points t) s.shared (if t = t then p else s.points t) shared
  rw [htarget]
  exact hmove

/-- The cell holds what has been published, and every call that returned a value returned that. -/
theorem cell_of_run {s : (system build failures).State} (h : (system build failures).Run steps s) :
    published steps = (s : State α).shared.cell.toList ∧
    ∀ v, .ok v ∈ results steps → (s : State α).shared.cell = some v := by
  induction h with
  | start => exact ⟨rfl, nofun⟩
  | @step steps s s' t hrun hnext ih =>
    have hs : Sound (s : State α) := sound_of_reachable hrun.reachable
    have hmove := move_of_next hnext
    constructor
    · rw [published_append, ih.1]
      exact (hmove.cell_eq (hs.knows t)).symm
    · intro v hv
      rcases mem_results_append.1 hv with hv | hv
      · exact hmove.cell_eq_some (hs.knows t) (ih.2 v hv)
      · have hown := (hmove.own hs.shared (hs.knows t)).2
        rw [hv] at hown
        exact hown

/-- A thread stays where its last step took it. -/
theorem points_of_run {before between : List (system build failures).Step}
    {s : (system build failures).State}
    (h : (system build failures).Run (before ++ e :: between) s)
    (hne : ∀ g ∈ between, g.thread ≠ e.thread) : (s : State α).points e.thread = target e := by
  induction between using List.reverseRecOn generalizing s with
  | nil =>
    obtain ⟨rfl, -⟩ := h.of_append_singleton
    rfl
  | append_singleton between g ih =>
    rw [← List.cons_append, ← List.append_assoc] at h
    obtain ⟨rfl, hrun, hnext⟩ := h.of_append_singleton
    obtain ⟨p, shared, hafter, -⟩ := move_of_mem_next hnext
    have hg : e.thread ≠ g.thread := (hne g (by simp)).symm
    rw [hafter]
    show (if e.thread = g.thread then p else _) = target e
    rw [if_neg hg]
    exact ih hrun fun g' hg' => hne g' (List.mem_append_left _ hg')

end History

/-! ## Trying again -/

theorem next_of_step {t : Nat} {s : State α} {p : Point α} {shared : Shared α}
    (h : step build (s.points t) s.shared = some (p, shared)) :
    (system build failures).next t s =
      [(⟨fun u => if u = t then p else s.points u, shared⟩ : State α)] := by
  simp only [system, h]

/-- A call that nobody disturbs ends in an interleaving as it does when followed on its own. -/
theorem exists_advance {t n : Nat} {p : Point α} {shared shared' : Shared α} {r : Outcome α}
    (h : follow build n p shared = (r, shared')) (hr : r ≠ .error .outOfRange) {s : State α}
    (hp : s.points t = p) (hs : s.shared = shared) :
    ∃ k, ∃ s' : State α, (system build failures).advance t k s = s' ∧
      s'.points t = .finished r ∧ s'.shared = shared' := by
  fun_induction follow build n p shared generalizing s with
  | case1 n r' shared =>
    cases h
    exact ⟨0, s, rfl, hp, hs⟩
  | case2 p shared =>
    cases h
    exact absurd rfl hr
  | case3 n p shared hne p' shared'' hstep ih =>
    subst hp hs
    obtain ⟨k, s', hadvance, hs'⟩ :=
      ih h (s := ⟨fun u => if u = t then p' else s.points u, shared''⟩) (if_pos rfl) rfl
    refine ⟨k + 1, s', ?_, hs'⟩
    simp only [System.advance, next_of_step hstep]
    exact hadvance
  | case4 n p shared hne hstep =>
    cases h
    exact absurd rfl hr

/-- A call that finds no native lock makes one, builds the value and returns it, if both go well. -/
theorem follow_absent {s : Shared α} {v : α} (hs : s.Sound) (hp : s.phase = .absent)
    (hf : s.failures.headD false = false) (hb : build s.attempts = .ok v) :
    ∃ shared, follow build callLength .looking s = (.ok v, shared) ∧
      shared.calls = s.calls ++ [.create true, .lock, .unlock] := by
  obtain ⟨hcell, hheld⟩ := hs.unused (by rw [hp]; decide)
  simp [follow, callLength, step, hcell, hheld, hp, hf, hb, -List.headD_eq_head?_getD]

/-! ## Building once -/

/-- What holds after the steps of an interleaving, in the state that they reach. -/
structure BuildsOnce (steps : List (system build failures).Step) (s : State α) : Prop where
  /-- The native lock is made at most once. -/
  made_le : s.shared.calls.count (.create true) ≤ 1
  /-- At most one value is published. -/
  length_published_le : (published steps).length ≤ 1
  /-- Every call that returns a value returns the published one. -/
  published_eq : ∀ v, .ok v ∈ results steps → published steps = [v]
  /-- Whoever is about to use the native lock, or has it, finds it stored and announced. -/
  stored : ∀ t, (s.points t).usesNative → s.shared.stored = true ∧ s.shared.phase = .present
  not_misused : ∀ t, s.points t ≠ .misused
  /-- A call that has failed to make the native lock returns just that with its next step, which
  leaves nothing published and the phase absent. -/
  refused : ∀ before e between error, steps = before ++ e :: between →
    origin e = .creating → target e = .abandoning error →
    (∀ g ∈ between, g.thread ≠ e.thread) →
    ∃ s' : State α, (system build failures).next e.thread s = [s'] ∧
      s'.points e.thread = .finished (Outcome.fail (.lockInit error)) ∧
      s'.shared.cell = none ∧ s'.shared.phase = .absent
  /-- While the phase is absent, a call makes the native lock afresh, and returns the value if that
  and building go well. -/
  retried : s.shared.phase = .absent → ∀ t v, s.points t = .idle →
    s.shared.failures.headD false = false → build s.shared.attempts = .ok v →
    ∃ n, ∃ s' : State α, (system build failures).advance t n s = s' ∧
      s'.points t = .finished (.ok v) ∧
      s'.shared.calls = s.shared.calls ++ [.create true, .lock, .unlock]

/-- Whatever the interleaving of any number of threads, whichever attempts to make the native lock
fail and however building ends each time, at most one native lock is made and at most one value is
published, and that value is what every successful call returns; nobody uses the native lock before
it is stored; and a call that fails to make it says so and leaves everything for a later call to try
again. -/
theorem builds_once {steps : List (system build failures).Step} {s : State α}
    (h : (system build failures).Run steps s) : BuildsOnce steps s := by
  have hs : Sound s := sound_of_reachable h.reachable
  obtain ⟨hpublished, hresults⟩ := cell_of_run h
  constructor
  case made_le => exact hs.shared.made_le
  case length_published_le =>
    rw [hpublished]
    exact Option.length_toList_le
  case published_eq =>
    intro v hv
    rw [hpublished, hresults v hv]
    rfl
  case stored =>
    intro t ht
    have hp := (hs.knows t).phase_of_usesNative ht
    exact ⟨hs.shared.stored hp, hp⟩
  case not_misused =>
    intro t ht
    have hknows := hs.knows t
    rw [ht] at hknows
    exact hknows
  case refused =>
    intro before e between error hsteps _ htarget hne
    subst hsteps
    have hpoint : s.points e.thread = .abandoning error := (points_of_run h hne).trans htarget
    have hknows := hs.knows e.thread
    rw [hpoint] at hknows
    refine ⟨_, next_of_step (by rw [hpoint]; rfl), if_pos rfl, ?_, rfl⟩
    exact (hs.shared.unused (by rw [hknows.1]; decide)).1
  case retried =>
    intro hp t v hidle hf hb
    obtain ⟨shared, hfollow, hcalls⟩ := follow_absent hs.shared hp hf hb
    have hcall : follow build (callLength + 1) (s.points t) s.shared = (.ok v, shared) := by
      rw [hidle]
      exact hfollow
    obtain ⟨k, s', hadvance, hpoint, hshared⟩ := exists_advance hcall nofun rfl rfl
    exact ⟨k, s', hadvance, hpoint, hshared ▸ hcalls⟩

/-- A system that fails to make the native lock once, and in which the values are numbered by the
attempts to build them. -/
abbrev numbered : System := system (fun n => (.ok n : Outcome Nat)) [true]

/-- Thread `0` fails to make the native lock and calls again. Meanwhile thread `1` makes it and
builds, and still has it when `0` comes to take it. -/
def contended : List numbered.Step :=
  numbered.schedule [0, 0, 0, 0, 1, 1, 1, 0, 0, 0, 0, 1, 1, 1, 1, 1, 1, 0, 0, 1, 1, 0, 0, 0]
    numbered.start

theorem builds_once_contended :
    ∃ s : State Nat, numbered.Run contended s ∧
      results contended = [Outcome.fail (.lockInit scriptedFailure), .ok 0, .ok 0] ∧
      BuildsOnce contended s := by
  obtain ⟨s, hs⟩ : ∃ s, numbered.Run ([] ++ contended) s := System.Run.exists_schedule _ .start
  rw [List.nil_append] at hs
  exact ⟨s, hs, rfl, builds_once hs⟩

end BatchShader.Lock.LazyCell
