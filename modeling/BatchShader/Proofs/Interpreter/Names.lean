import BatchShader.Proofs.Interpreter.Statement
import Mathlib.Data.String.Basic

/-
  The names of the variables stay in ascending order.

  `Store.put` puts a register in its place among the others (`Ascending.put`), and nothing else ever
  changes the variables of a batch (`Batch.Reachable.ascending`). So there is one way only to hold
  some variables, and storing a register that is there already changes nothing
  (`Ascending.put_self`).
-/

namespace BatchShader

open Stateful (Ends)

namespace Store

/-! ## Order -/

/-- The names are in ascending order. -/
def Ascending (s : Store) : Prop := s.entries.Pairwise fun p q => p.1 < q.1

theorem ascending_new (rows : Nat) : (new rows).Ascending := List.Pairwise.nil

section Entries

variable {x : String} {R : Register} {l : List (String × Register)}

theorem mem_of_mem_place {p : String × Register} (h : p ∈ place x R l) : p = (x, R) ∨ p ∈ l := by
  induction l with
  | nil => exact .inl (List.mem_singleton.1 h)
  | cons e l ih =>
    obtain ⟨y, S⟩ := e
    unfold place at h
    split at h
    · exact (List.mem_cons.1 h).imp_right (List.mem_cons_of_mem _)
    · split at h
      · exact List.mem_cons.1 h
      · obtain rfl | h := List.mem_cons.1 h
        · exact .inr List.mem_cons_self
        · exact (ih h).imp_right (List.mem_cons_of_mem _)

theorem pairwise_place (h : l.Pairwise fun p q => p.1 < q.1) :
    (place x R l).Pairwise fun p q => p.1 < q.1 := by
  induction l with
  | nil => exact List.pairwise_singleton _ _
  | cons e l ih =>
    obtain ⟨y, S⟩ := e
    obtain ⟨hafter, hrest⟩ := List.pairwise_cons.1 h
    unfold place
    split
    · next hxy =>
      subst hxy
      exact List.pairwise_cons.2 ⟨hafter, hrest⟩
    · next hne =>
      split
      · next hlt =>
        refine List.pairwise_cons.2 ⟨fun p hp => ?_, h⟩
        obtain rfl | hp := List.mem_cons.1 hp
        · exact hlt
        · exact lt_trans hlt (hafter p hp)
      · next hnlt =>
        have hyx : y < x := lt_of_le_of_ne (not_lt.1 hnlt) (Ne.symm hne)
        refine List.pairwise_cons.2 ⟨fun p hp => ?_, ih hrest⟩
        obtain rfl | hp := mem_of_mem_place hp
        · exact hyx
        · exact hafter p hp

theorem place_place (R' : Register) : place x R' (place x R l) = place x R' l := by
  induction l with
  | nil => exact if_pos rfl
  | cons e l ih =>
    obtain ⟨y, S⟩ := e
    by_cases hxy : x = y
    · rw [place, place, if_pos hxy, if_pos hxy, place, if_pos rfl]
    · rw [place, place, if_neg hxy, if_neg hxy]
      by_cases hlt : x < y
      · rw [if_pos hlt, if_pos hlt, place, if_pos rfl]
      · rw [if_neg hlt, if_neg hlt, place, if_neg hxy, if_neg hlt, ih]

theorem mem_of_lookup (h : l.lookup x = some R) : (x, R) ∈ l := by
  obtain ⟨before, after, rfl, -⟩ := List.lookup_eq_some_iff.1 h
  exact List.mem_append_right before List.mem_cons_self

theorem place_self (h : l.Pairwise fun p q => p.1 < q.1) (hR : l.lookup x = some R) :
    place x R l = l := by
  induction l with
  | nil => cases hR
  | cons e l ih =>
    obtain ⟨y, S⟩ := e
    obtain ⟨hafter, hrest⟩ := List.pairwise_cons.1 h
    rw [lookup_entry] at hR
    unfold place
    split at hR
    · next hxy =>
      cases hR
      rw [if_pos hxy, hxy]
    · next hxy =>
      have hyx : y < x := hafter _ (mem_of_lookup hR)
      rw [if_neg hxy, if_neg (not_lt.2 (le_of_lt hyx)), ih hrest hR]

end Entries

variable {s : Store} {x : String} {R : Register}

theorem Ascending.put (h : s.Ascending) (x : String) (R : Register) : (s.put x R).Ascending :=
  pairwise_place h

/-- What is stored under a name last is what counts. -/
@[simp] theorem put_put (s : Store) (x : String) (R R' : Register) :
    (s.put x R).put x R' = s.put x R' := congrArg (Store.mk s.rows) (place_place R')

/-- A register is stored where it is already. -/
theorem Ascending.put_self (h : s.Ascending) (hR : s.get? x = some R) : s.put x R = s :=
  congrArg (Store.mk s.rows) (place_self h hR)

theorem get?_put_self (s : Store) (x : String) (R : Register) : (s.put x R).get? x = some R := by
  rw [get?_put, if_pos rfl]

end Store

/-! ## Execution -/

namespace Interpreter

variable {it : Interpreter} {b b' : Batch} {c : LiveChain}

/-- Once the target has been stored, it does not show whether it was declared for that. -/
theorem put_declareTarget (hb : b.Sound) {target : String} {mask : Option (List UInt8)}
    {t : ShaderType} (h : (declareTarget target mask t).run b = .ok () b') (R : Register) :
    ({ b' with store := b'.store.put target R } : Batch) =
      { b with store := b.store.put target R } := by
  obtain ⟨-, rfl⟩ | ⟨-, -, rfl⟩ := (declareTarget_eq_ok hb).1 h
  · rfl
  · simp only [declared, Store.put_put]

theorem ascending_declareTarget (hb : b.Sound) (hnames : b.store.Ascending) {target : String}
    {mask : Option (List UInt8)} {t : ShaderType} (h : Ends (declareTarget target mask t) b b') :
    b'.store.Ascending := by
  cases h with
  | ok _ h =>
    obtain ⟨-, rfl⟩ | ⟨-, -, rfl⟩ := (declareTarget_eq_ok hb).1 h
    · exact hnames
    · exact hnames.put target _
  | error e h =>
    obtain ⟨-, -, -, rfl⟩ := (declareTarget_eq_error hb).1 h
    exact hnames

theorem ascending_assign (hb : b.Sound) (hnames : b.store.Ascending) {target : String}
    {mask : Option (List UInt8)} {value : Register}
    (h : Ends (it.assign c target mask value) b b') : b'.store.Ascending := by
  obtain ⟨e, hrun⟩ | ⟨_, mid, hrun, h⟩ := h.bind
  · exact ascending_declareTarget hb hnames (.error e hrun)
  have hmid := ascending_declareTarget hb hnames (.ok _ hrun)
  obtain ⟨-, -, rfl⟩ | ⟨dst, -, h⟩ := h.get_bind.ofExcept_bind
  · exact hmid
  obtain ⟨-, -, rfl⟩ | ⟨lanes, -, h⟩ := h.ofExcept_bind
  · exact hmid
  obtain ⟨-, -, rfl⟩ | ⟨written, -, h⟩ := h.ofExcept_bind
  · exact hmid
  rw [h.set]
  exact hmid.put target written

mutual

theorem ascending_execStmt {b b' : Batch} (hb : b.Sound) (hnames : b.store.Ascending)
    {c : LiveChain} (hc : b.Runs c) (s : Stmt) (h : Ends (it.execStmt c s) b b') :
    b'.store.Ascending := by
  match s with
  | .assign target mask e =>
    obtain ⟨f, -, rfl⟩ | ⟨value, -, h⟩ := ends_assign h
    · exact hnames
    · exact ascending_assign hb hnames h
  | .branch cond yes no =>
    obtain ⟨f, -, rfl⟩ | ⟨p, -, h⟩ := ends_branch h
    · exact hnames
    obtain ⟨f, hrun⟩ | ⟨mid, hrun, h⟩ := h
    · exact ascending_execBlock hb hnames (hc.filter p) yes (.error f hrun)
    have hmid := ascending_execBlock hb hnames (hc.filter p) yes (.ok _ hrun)
    obtain ⟨hsound, hruns⟩ := runs_otherSide hb hc hrun
    exact ascending_execBlock hsound hmid hruns no h
  | .discard =>
    rw [ends_discard hb hc.rows_eq h]
    exact hnames

theorem ascending_execBlock {b b' : Batch} (hb : b.Sound) (hnames : b.store.Ascending)
    {c : LiveChain} (hc : b.Runs c) (body : List Stmt) (h : Ends (it.execBlock c body) b b') :
    b'.store.Ascending := by
  match body with
  | [] =>
    rw [ends_block_nil h]
    exact hnames
  | s :: rest =>
    obtain ⟨-, rfl⟩ | ⟨-, h⟩ := ends_block_cons h
    · exact hnames
    obtain ⟨f, hrun⟩ | ⟨c', mid, hrun, h⟩ := h
    · exact ascending_execStmt hb hnames hc s (.error f hrun)
    have hmid := ascending_execStmt hb hnames hc s (.ok c' hrun)
    obtain ⟨hsound, hruns⟩ := runs_execStmt hb hc hrun
    exact ascending_execBlock hsound hmid hruns rest h

end

theorem ascending_run (hb : b.Sound) (hnames : b.store.Ascending) {shader : Shader}
    (h : Ends (it.run shader) b b') : b'.store.Ascending := by
  cases h with
  | ok _ h =>
    obtain ⟨-, body, -, h⟩ := run_eq_ok.1 h
    exact ascending_execBlock hb hnames hb.runs body (.ok _ h)
  | error e h =>
    rw [run_eq] at h
    split at h
    · cases h
      exact hnames
    · split at h
      · next body _ => exact ascending_execBlock hb hnames hb.runs body (.error e h)
      · cases h
        exact hnames

end Interpreter

/-- Whatever a host has done with a batch, the names of its variables are in ascending order. -/
theorem Batch.Reachable.ascending {b : Batch} (h : b.Reachable) : b.store.Ascending := by
  induction h with
  | new h | ofMask h =>
    obtain ⟨c, -, h⟩ := Outcome.bind_eq_ok.1 h
    rw [← Except.ok.inj h]
    exact Store.ascending_new c.rows
  | withTextures _ textures ih => exact ih
  | setInput _ _ h ih | setUniform _ h ih =>
    obtain ⟨-, rfl⟩ := setInput_eq_ok.1 h
    exact ih.put _ _
  | run hb h ih => exact Interpreter.ascending_run hb.sound ih h

end BatchShader
