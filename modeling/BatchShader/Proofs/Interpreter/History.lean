import BatchShader.Proofs.Builtin.Standard
import BatchShader.Proofs.Interpreter.Statement
import Mathlib.Logic.Relation

/-
  Batches in the course of time.

  A host makes a batch from a mask (`Created`) and then binds textures to it, gives it variables and
  runs shaders on it, with success or not (`Step`, `Evolves`). All that this does to the rows is
  that some of the live ones stop (`Stops`); so at any time each row of the mask is either live or
  discarded, and the chain is the one for the mask without the discarded rows
  (`divides_of_evolves`). The chain of the batch is also all that one run leaves for the next one to
  know about the rows: two bodies run one after the other do what they do as one body
  (`run_append`).
-/

namespace BatchShader

open Stateful (Ends)

/-- A register of conditions, one for each row. -/
theorem Register.wellFormed_conditions (column : Array Bool) :
    Register.WellFormed ⟨.bool, column.size, [⟨.bool, column⟩]⟩ where
  length_lanes := rfl
  kind_lane := by simp [ShaderType.kind?]
  rows_lane := by simp [Lane.rows]

namespace Batch

/-! ## New batches -/

/-- The batches that are made with the rows of a mask live. -/
inductive Created : Array Bool → Batch → Prop
  | new {rows : Nat} {b : Batch} (h : new rows = .ok b) : Created (Array.replicate rows true) b
  | ofMask {mask : Array Bool} {b : Batch} (h : ofMask mask = .ok b) : Created mask b

theorem Created.ofMask_eq {mask : Array Bool} {b : Batch} (h : Created mask b) :
    Batch.ofMask mask = .ok b := by
  cases h with
  | new h =>
    unfold Batch.ofMask
    rw [← LiveChain.full_eq_ofMask]
    exact h
  | ofMask h => exact h

theorem Created.reachable {mask : Array Bool} {b : Batch} (h : Created mask b) : b.Reachable :=
  .ofMask h.ofMask_eq

/-- At first the rows of the mask are live and none is discarded. -/
theorem Created.rows {mask : Array Bool} {b : Batch} (h : Created mask b) :
    LiveChain.ofMask mask = .ok b.chain ∧ ∀ r, b.isDiscarded r = false := by
  obtain ⟨c, hc, hb⟩ := Outcome.bind_eq_ok.1 h.ofMask_eq
  rw [← Except.ok.inj hb]
  refine ⟨hc, fun r => ?_⟩
  simp [isDiscarded, ofChain, Array.getD]

/-! ## What a host does to a batch -/

/-- One call of the host. A run may fail; a variable that is refused is no step. -/
inductive Step (b b' : Batch) : Prop
  | withTextures (textures : TextureUnits) (h : b' = b.withTextures textures)
  | setInput {x : String} {R : Register} (hR : R.WellFormed) (h : b.setInput x R = .ok b')
  | setUniform {x : String} {v : Value} (h : b.setUniform x v = .ok b')
  | run {it : Interpreter} {shader : Shader} (h : Ends (it.run shader) b b')

/-- Any number of calls. -/
def Evolves : Batch → Batch → Prop := Relation.ReflTransGen Step

theorem Reachable.step {b b' : Batch} (hb : b.Reachable) (h : Step b b') : b'.Reachable := by
  cases h with
  | withTextures textures h => exact h ▸ hb.withTextures textures
  | setInput hR h => exact hb.setInput hR h
  | setUniform h => exact hb.setUniform h
  | run h => exact hb.run h

theorem Reachable.evolves {b b' : Batch} (hb : b.Reachable) (h : Evolves b b') :
    b'.Reachable := by
  induction h with
  | refl => exact hb
  | tail _ h ih => exact ih.step h

/-! ## Rows that stop -/

/-- From one batch to another, some live rows have been discarded and taken off the chain, and
nothing else has happened to the rows. -/
structure Stops (b b' : Batch) : Prop where
  rows_eq : b'.rows = b.rows
  chain_eq : b'.chain = b'.remaining b.chain
  discarded_mono : ∀ r, b.isDiscarded r = true → b'.isDiscarded r = true
  stopped : ∀ r, b'.isDiscarded r = true → r ∈ b.chain.visited ∨ b.isDiscarded r = true

section Stops

variable {b b' b'' : Batch}

theorem Frame.stops (h : Frame b.chain b b') : Stops b b' where
  rows_eq := h.rows_eq
  chain_eq := h.chain_eq
  discarded_mono := h.discarded_mono
  stopped r hr := by
    by_cases hlive : r ∈ b.chain.visited
    · exact .inl hlive
    · exact .inr (h.discarded_eq r hlive ▸ hr)

theorem Stops.refl (h : b.Sound) : Stops b b := (Frame.refl b.chain h).stops

theorem Stops.trans (hb : b.Sound) (h : Stops b b') (h' : Stops b' b'') : Stops b b'' where
  rows_eq := h'.rows_eq.trans h.rows_eq
  chain_eq := by
    rw [h'.chain_eq, h.chain_eq, remaining_remaining hb.chain.limit h'.discarded_mono]
  discarded_mono r hr := h'.discarded_mono r (h.discarded_mono r hr)
  stopped r hr := by
    obtain hlive | hr := h'.stopped r hr
    · rw [h.chain_eq, mem_visited_remaining hb.chain.limit] at hlive
      exact .inl hlive.1
    · exact h.stopped r hr

/-- Only a run stops rows. -/
theorem Step.stops (hb : b.Sound) (h : Step b b') : Stops b b' := by
  cases h with
  | withTextures textures h =>
    subst h
    exact ⟨rfl, hb.runs.remaining_eq.symm, fun _ h => h, fun _ h => .inr h⟩
  | setInput _ h =>
    obtain ⟨-, rfl⟩ := setInput_eq_ok.1 h
    exact ⟨rfl, hb.runs.remaining_eq.symm, fun _ h => h, fun _ h => .inr h⟩
  | setUniform h =>
    obtain ⟨-, rfl⟩ := setInput_eq_ok.1 h
    exact ⟨rfl, hb.runs.remaining_eq.symm, fun _ h => h, fun _ h => .inr h⟩
  | run h => exact (Interpreter.frame_run hb h).stops

theorem Evolves.stops (hb : b.Reachable) (h : Evolves b b') : Stops b b' := by
  induction h with
  | refl => exact .refl hb.sound
  | tail hbefore h ih => exact ih.trans hb.sound (h.stops (hb.evolves hbefore).sound)

end Stops

/-- The live and the discarded rows of a batch divide the rows of a mask, and the chain is the one
for the mask without the discarded rows. -/
structure Divides (mask : Array Bool) (b : Batch) : Prop where
  live : ∀ r ∈ b.chain.visited, b.isDiscarded r = false
  live_or_discarded : ∀ r, mask.getD r false = true ↔ r ∈ b.chain.visited ∨ b.isDiscarded r = true
  chain_eq : LiveChain.ofMask (mask.mapIdx fun r live => live && !b.isDiscarded r) = .ok b.chain

/-- Whatever is done to a batch that was made from a mask, its live and discarded rows divide the
rows of the mask, and a discarded row never comes back. -/
theorem divides_of_evolves {mask : Array Bool} {b₀ b : Batch} (h₀ : Created mask b₀)
    (h : Evolves b₀ b) :
    Divides mask b ∧
      ∀ b', Evolves b b' → ∀ r, b.isDiscarded r = true → b'.isDiscarded r = true := by
  obtain ⟨hchain, hnone⟩ := h₀.rows
  have hreachable := h₀.reachable.evolves h
  have hstops := h.stops h₀.reachable
  refine ⟨⟨hreachable.sound.live, fun r => ?_, ?_⟩,
    fun b' h' => (h'.stops hreachable).discarded_mono⟩
  · rw [← LiveChain.mem_visited_ofMask hchain, hstops.chain_eq,
      mem_visited_remaining h₀.reachable.sound.chain.limit]
    constructor
    · intro hr
      cases hdiscarded : b.isDiscarded r with
      | false => exact .inl ⟨hr, rfl⟩
      | true => exact .inr rfl
    · rintro (⟨hr, -⟩ | hr)
      · exact hr
      · obtain hr | hr := hstops.stopped r hr
        · exact hr
        · rw [hnone r] at hr
          cases hr
  · rw [LiveChain.ofMask_mapIdx hchain, hstops.chain_eq]
    rfl

theorem divides_of_evolves_discarding :
    let lit : Register := ⟨.bool, 3, [⟨.bool, #[true, true, false]⟩]⟩
    let it : Interpreter := ⟨Builtin.standardRegistry, .standard⟩
    let shader : Shader := ⟨.fragment, [.branch (.var "lit" .bool) [] [.discard]]⟩
    ∃ b₀ b₁ b, Created #[true, false, true] b₀ ∧ b₀.setInput "lit" lit = .ok b₁ ∧
      (it.run shader).run b₁ = .ok () b ∧ b.isDiscarded 2 = true ∧ Evolves b₀ b ∧
      Divides #[true, false, true] b ∧
      ∀ b', Evolves b b' → ∀ r, b.isDiscarded r = true → b'.isDiscarded r = true := by
  intro lit it shader
  have hlit : lit.WellFormed := Register.wellFormed_conditions #[true, true, false]
  let b₁ : Batch := { Batch.ofChain (.build 3 [0, 2]) with store := (Store.new 3).put "lit" lit }
  have h₀ : Created #[true, false, true] (ofChain (.build 3 [0, 2])) := .ofMask (by exact rfl)
  have hset : (ofChain (.build 3 [0, 2])).setInput "lit" lit = .ok b₁ := rfl
  obtain ⟨b, hrun, hdiscarded⟩ := Stateful.exists_run_eq_ok (x := it.run shader) (s := b₁)
    (P := fun b => b.isDiscarded 2) (by decide +kernel)
  have hevolves : Evolves (ofChain (.build 3 [0, 2])) b :=
    (Relation.ReflTransGen.single (.setInput hlit hset)).tail (.run (.ok _ hrun))
  exact ⟨_, b₁, b, h₀, hset, hrun, hdiscarded, hevolves, divides_of_evolves h₀ hevolves⟩

end Batch

namespace Interpreter

/-! ## Two runs in turn -/

/-- Without folding, two bodies run as one do what the first run does and then, if it succeeded, the
second one, and fail as the first one that fails. -/
theorem run_append {it : Interpreter} (hfold : it.config.foldConstants = false) (stage : Stage)
    (first second : List Stmt) {b : Batch} (hb : b.Reachable) :
    (it.run ⟨stage, first ++ second⟩).run b =
      (do it.run ⟨stage, first⟩; it.run ⟨stage, second⟩ : Action Unit).run b := by
  have hbody (body : List Stmt) : it.bodyOf ⟨stage, body⟩ = .ok body := by
    unfold bodyOf
    rw [hfold, if_neg Bool.false_ne_true]
  by_cases hrows : it.config.batchRows < b.rows
  · have hfails (body : List Stmt) : (it.run ⟨stage, body⟩).run b =
        .error (.error (.batchTooLarge b.rows it.config.batchRows)) b := by
      rw [run_eq, if_pos hrows]
    rw [hfails, Stateful.run_bind_eq_error.2 (.inl (hfails first))]
  · rw [run_eq, if_neg hrows, hbody]
    change (it.execBlock b.chain (first ++ second)).run b = _
    rw [run_execBlock_append hb.sound hb.sound.runs]
    refine Stateful.run_bind_congr ?_ fun _ mid hmid => ?_
    · rw [run_eq, if_neg hrows, hbody]
    · have hframe := frame_execBlock hb.sound hb.sound.runs first (.ok _ hmid)
      rw [run_eq, hframe.rows_eq, if_neg hrows, hbody, hframe.chain_eq]
      rfl

theorem run_append_discarding :
    let config := { Config.standard with foldConstants := false }
    let it : Interpreter := ⟨Builtin.standardRegistry, config⟩
    let first : List Stmt := [.branch (.var "lit" .bool) [] [.discard]]
    let second : List Stmt := [.assign "shade" none (.unary .not (.var "lit" .bool) .bool)]
    ∃ b b', b.Reachable ∧ (it.run ⟨.fragment, first ++ second⟩).run b = .ok () b' ∧
      b'.isDiscarded 1 = true ∧ b'.store.contains "shade" = true ∧
      (do it.run ⟨.fragment, first⟩; it.run ⟨.fragment, second⟩ : Action Unit).run b =
        .ok () b' := by
  intro config it first second
  let lit : Register := ⟨.bool, 2, [⟨.bool, #[true, false]⟩]⟩
  let b : Batch := { Batch.ofChain (.build 2 [0, 1]) with store := (Store.new 2).put "lit" lit }
  have hlit : lit.WellFormed := Register.wellFormed_conditions #[true, false]
  have hb : b.Reachable := .setInput (.new (by exact rfl : Batch.new 2 = .ok _)) hlit rfl
  obtain ⟨b', hrun, hend⟩ := Stateful.exists_run_eq_ok
    (x := it.run ⟨.fragment, first ++ second⟩) (s := b)
    (P := fun b' => b'.isDiscarded 1 && b'.store.contains "shade") (by decide +kernel)
  rw [Bool.and_eq_true] at hend
  exact ⟨b, b', hb, hrun, hend.1, hend.2,
    (run_append rfl .fragment first second hb).symm.trans hrun⟩

end Interpreter

end BatchShader
