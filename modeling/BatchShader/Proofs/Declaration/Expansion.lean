import BatchShader.Declaration.Grammar
import Mathlib.Data.List.Forall2

/-
  Which signatures a declaration stands for.

  A family has a member of some sizes (`Family.members`), and the placeholders of a declaration
  share a size if each of their families has a member of it. Signatures are in lock step with the
  declaration if they are its instances at the shared sizes, in ascending order
  (`Declaration.LockStep`).

  A declaration without placeholders expands to itself. With placeholders it expands in lock step,
  unless it mixes `genType` with vectors alone (`Declaration.Mixed`): size 1 is then tried for the
  sake of `genType`, and each `vec`, `ivec` and `bvec` stands for a scalar in the first signature
  (`expand_lockStep`, `expand_scalar_for_ivec`).
-/

namespace BatchShader

/-! ## Lists side by side -/

section Lists

variable {α β : Type} {R : α → β → Prop} {f : α → Option β} {l : List α} {m : List β}

theorem mapM_eq_some_iff :
    l.mapM f = some m ↔ List.Forall₂ (fun a b => f a = some b) l m := by
  induction l generalizing m with
  | nil => simp [eq_comm]
  | cons a l ih =>
    simp only [List.mapM_cons, Option.bind_eq_bind, Option.bind_eq_some_iff, ih,
      List.forall₂_cons_left_iff]
    constructor
    · rintro ⟨b, hb, m', hm, h⟩
      cases h
      exact ⟨b, m', hb, hm, rfl⟩
    · rintro ⟨b, m', hb, hm, rfl⟩
      exact ⟨b, hb, m', hm, rfl⟩

theorem exists_forall₂ (h : ∀ a ∈ l, ∃ b, R a b) : ∃ m, List.Forall₂ R l m := by
  induction l with
  | nil => exact ⟨[], .nil⟩
  | cons a l ih =>
    obtain ⟨⟨b, hb⟩, hl⟩ := List.forall_mem_cons.1 h
    obtain ⟨m, hm⟩ := ih hl
    exact ⟨b :: m, .cons hb hm⟩

theorem forall₂_filterMap (h : ∀ a ∈ l, ∃ b, f a = some b ∧ R a b) :
    List.Forall₂ R l (l.filterMap f) := by
  induction l with
  | nil => exact .nil
  | cons a l ih =>
    obtain ⟨⟨b, hb, hR⟩, hl⟩ := List.forall_mem_cons.1 h
    rw [List.filterMap_cons_some hb]
    exact .cons hR (ih hl)

theorem forall₂_imp_of_mem {S : α → β → Prop} (h : List.Forall₂ R l m)
    (hRS : ∀ a ∈ l, ∀ b, R a b → S a b) : List.Forall₂ S l m := by
  rw [List.forall₂_iff_zip] at h ⊢
  exact ⟨h.1, fun hab => hRS _ (List.of_mem_zip hab).1 _ (h.2 hab)⟩

theorem exists_mem_zip {a : α} (h : l.length = m.length) (ha : a ∈ l) : ∃ b, (a, b) ∈ l.zip m := by
  have hfst : (l.zip m).map Prod.fst = l := List.map_fst_zip (Nat.le_of_eq h)
  rw [← hfst] at ha
  obtain ⟨⟨_, b⟩, hb, rfl⟩ := List.mem_map.1 ha
  exact ⟨b, hb⟩

theorem exists_of_mem_right (h : List.Forall₂ R l m) {b : β} (hb : b ∈ m) : ∃ a, R a b := by
  induction h with
  | nil => cases hb
  | cons hR _ ih =>
    rcases List.mem_cons.1 hb with rfl | hb
    · exact ⟨_, hR⟩
    · exact ih hb

end Lists

/-! ## Members of families -/

namespace Family

/-- The members of a family, each with its size. -/
def members : Family → List (Nat × ShaderType)
  | genType => [(1, .float), (2, .vec2), (3, .vec3), (4, .vec4)]
  | vec => [(2, .vec2), (3, .vec3), (4, .vec4)]
  | ivec => [(2, .ivec2), (3, .ivec3), (4, .ivec4)]
  | bvec => [(2, .bvec2), (3, .bvec3), (4, .bvec4)]
  | mat => [(2, .mat2), (3, .mat3), (4, .mat4)]

/-- A single component. -/
def scalar : Family → ShaderType
  | genType | vec | mat => .float
  | ivec => .int
  | bvec => .bool

/-- The families of vectors proper. -/
def vectors : List Family := [vec, ivec, bvec]

section Members

variable {f : Family} {n : Nat} {t : ShaderType}

theorem sizes_eq : f.sizes = f.members.map Prod.fst := by cases f <;> rfl

theorem exists_member_iff : (∃ t, (n, t) ∈ f.members) ↔ n ∈ f.sizes := by
  simp [sizes_eq]

theorem sizes_of_ne (h : f ≠ genType) : f.sizes = [2, 3, 4] := by
  cases f <;> first | rfl | exact absurd rfl h

/-- The type that stands for a family at a size is its member, but for a vector at size 1. -/
theorem member?_eq_some (h : n = 1 → f ∉ vectors) :
    f.member? n = some t ↔ (n, t) ∈ f.members := by
  match n with
  | 1 =>
    cases f with
    | genType | mat => simp [member?, members, ShaderType.vector?, ShaderType.matrix?, eq_comm]
    | vec | ivec | bvec => exact absurd (by decide) (h rfl)
  | 2 | 3 | 4 =>
    cases f <;> simp [member?, members, ShaderType.vector?, ShaderType.matrix?, eq_comm]
  | 0 | n + 5 => cases f <;> simp [member?, members, ShaderType.vector?, ShaderType.matrix?]

/-- At size 1 vectors would be scalars. -/
theorem member?_one (h : f ≠ mat) : f.member? 1 = some f.scalar := by
  cases f <;> first | rfl | exact absurd rfl h

theorem isScalar_scalar (f : Family) : f.scalar.isScalar = true := by cases f <;> rfl

theorem mem_vectors_iff : f ∈ vectors ↔ f ≠ genType ∧ f ≠ mat := by
  cases f <;> decide

theorem isScalar_of_member (hf : f ∈ vectors) (ht : (n, t) ∈ f.members) : t.isScalar = false := by
  have hvector : ∀ f ∈ vectors, ∀ p ∈ f.members, p.2.isScalar = false := by decide
  exact hvector f hf _ ht

end Members

end Family

/-! ## Instances -/

/-- A type that stands where a pattern stands, at a size. -/
def Pattern.StandsFor (n : Nat) : Pattern → ShaderType → Prop
  | concrete t, u => u = t
  | placeholder f, u => (n, u) ∈ f.members

/-- A single component that stands where a placeholder stands. -/
def Pattern.ScalarFor : Pattern → ShaderType → Prop
  | concrete t, u => u = t
  | placeholder f, u => u = f.scalar

namespace Declaration

/-- The result and the parameters. -/
def patterns (d : Declaration) : List Pattern := d.result :: d.params

/-- A signature of the name whose types stand for the patterns, one for each. -/
structure Instance (d : Declaration) (stands : Pattern → ShaderType → Prop) (s : Signature) :
    Prop where
  name : s.name = d.name
  types : List.Forall₂ stands d.patterns (s.result :: s.params)

/-- The family of each placeholder has a member of the size. -/
def Shared (d : Declaration) (n : Nat) : Prop := ∀ f ∈ d.families, ∃ t, (n, t) ∈ f.members

/-- One signature for each size that all placeholders share, in ascending order. -/
def LockStep (d : Declaration) (ss : List Signature) : Prop :=
  ∃ sizes : List Nat, sizes.Pairwise (· < ·) ∧ (∀ n, n ∈ sizes ↔ d.Shared n) ∧
    List.Forall₂ (fun n => d.Instance (Pattern.StandsFor n)) sizes ss

/-- `genType` beside vectors, and no matrix. -/
def Mixed (d : Declaration) : Prop :=
  .genType ∈ d.families ∧ .mat ∉ d.families ∧ ∃ f ∈ Family.vectors, f ∈ d.families

/-- A `vec`, `ivec` or `bvec` of the declaration is a scalar in the signature. -/
def ScalarForVector (d : Declaration) (s : Signature) : Prop :=
  ∃ f ∈ Family.vectors, ∃ t, (.placeholder f, t) ∈ d.patterns.zip (s.result :: s.params) ∧
    t.isScalar = true

/-! ## Signatures at a size -/

section Instances

variable {d : Declaration} {n : Nat} {s : Signature}

theorem mem_families_iff {f : Family} : f ∈ d.families ↔ .placeholder f ∈ d.patterns := by
  unfold families patterns
  rw [List.mem_filterMap]
  constructor
  · rintro ⟨p, hp, hf⟩
    cases p with
    | concrete t => cases hf
    | placeholder g =>
      cases hf
      exact hp
  · exact fun h => ⟨_, h, rfl⟩

theorem instantiate?_eq_some :
    d.instantiate? n = some s ↔ d.Instance (fun p t => p.resolve? n = some t) s := by
  obtain ⟨result, name, params⟩ := s
  simp only [instantiate?, Option.bind_eq_bind, Option.bind_eq_some_iff, mapM_eq_some_iff]
  constructor
  · rintro ⟨t, ht, ts, hts, h⟩
    cases h
    exact ⟨rfl, .cons ht hts⟩
  · rintro ⟨rfl, htypes⟩
    obtain ⟨ht, hts⟩ := List.forall₂_cons.1 htypes
    exact ⟨result, ht, params, hts, rfl⟩

/-- A signature at a size is an instance if the types of its placeholders are right. -/
theorem instance_of_resolved {R : Pattern → ShaderType → Prop} (hs : d.instantiate? n = some s)
    (hconcrete : ∀ t, R (.concrete t) t)
    (hplaceholder : ∀ f ∈ d.families, ∀ t, f.member? n = some t → R (.placeholder f) t) :
    d.Instance R s := by
  obtain ⟨hname, htypes⟩ := instantiate?_eq_some.1 hs
  refine ⟨hname, forall₂_imp_of_mem htypes fun p hp t ht => ?_⟩
  cases p with
  | concrete u =>
    cases ht
    exact hconcrete _
  | placeholder f => exact hplaceholder f (mem_families_iff.2 hp) t ht

/-- There is a signature at each size that all placeholders have a type for. -/
theorem exists_instantiate? (h : ∀ f ∈ d.families, ∃ t, f.member? n = some t) :
    ∃ s, d.instantiate? n = some s := by
  have hresolve : ∀ p ∈ d.patterns, ∃ t, p.resolve? n = some t := by
    intro p hp
    cases p with
    | concrete t => exact ⟨t, rfl⟩
    | placeholder f => exact h f (mem_families_iff.2 hp)
  obtain ⟨ts, hts⟩ := exists_forall₂ hresolve
  cases hts with
  | cons ht hts => exact ⟨⟨_, d.name, _⟩, instantiate?_eq_some.2 ⟨rfl, .cons ht hts⟩⟩

theorem exists_instance (h : n = 1 → ∀ f ∈ d.families, f ∉ Family.vectors) (hn : d.Shared n) :
    ∃ s, d.instantiate? n = some s ∧ d.Instance (Pattern.StandsFor n) s := by
  obtain ⟨s, hs⟩ := exists_instantiate? fun f hf => by
    obtain ⟨t, ht⟩ := hn f hf
    exact ⟨t, (Family.member?_eq_some fun hn => h hn f hf).2 ht⟩
  exact ⟨s, hs, instance_of_resolved hs (fun _ => rfl) fun f hf t ht =>
    (Family.member?_eq_some fun hn => h hn f hf).1 ht⟩

theorem lockStep_filterMap {sizes : List Nat} (hascending : sizes.Pairwise (· < ·))
    (hsizes : ∀ n, n ∈ sizes ↔ d.Shared n)
    (hone : 1 ∈ sizes → ∀ f ∈ d.families, f ∉ Family.vectors) :
    d.LockStep (sizes.filterMap d.instantiate?) := by
  refine ⟨sizes, hascending, hsizes, forall₂_filterMap fun n hn => ?_⟩
  refine exists_instance ?_ ((hsizes n).1 hn)
  rintro rfl
  exact hone hn

end Instances

/-! ## Expansions -/

section Expansions

variable {d : Declaration} {n : Nat} {s : Signature}

theorem shared_iff : d.Shared n ↔ ∀ f ∈ d.families, n ∈ f.sizes := by
  simp only [Shared, Family.exists_member_iff]

/-- Beside another family than `genType`, the sizes are 2, 3 and 4. -/
theorem lockStep_of_ne (h : ∃ f ∈ d.families, f ≠ .genType) :
    d.LockStep ([2, 3, 4].filterMap d.instantiate?) := by
  refine lockStep_filterMap (by decide) (fun n => ?_) (fun h => absurd h (by decide))
  rw [shared_iff]
  constructor
  · intro hn f hf
    have hsub : ∀ f : Family, [2, 3, 4] ⊆ f.sizes := fun f => by cases f <;> decide
    exact hsub f hn
  · intro hn
    obtain ⟨f, hf, hne⟩ := h
    exact Family.sizes_of_ne hne ▸ hn f hf

theorem lockStep_of_genType (hne : d.families ≠ []) (h : ∀ f ∈ d.families, f = .genType) :
    d.LockStep ([1, 2, 3, 4].filterMap d.instantiate?) := by
  refine lockStep_filterMap (by decide) (fun n => ?_) (fun _ f hf => ?_)
  · rw [shared_iff]
    obtain ⟨f, hf⟩ := List.exists_mem_of_ne_nil _ hne
    refine ⟨fun hn g hg => ?_, fun hn => ?_⟩
    · rw [h g hg]
      exact hn
    · have := hn f hf
      rwa [h f hf] at this
  · rw [h f hf]
    decide

/-- A declaration without placeholders is its own signature. -/
theorem expand_of_families_nil (h : d.families = []) :
    ∃ s, d.expand = [s] ∧ ∀ n, d.Instance (Pattern.StandsFor n) s := by
  obtain ⟨s, hs⟩ := exists_instantiate? (d := d) (n := 0) (by simp [h])
  refine ⟨s, by simp [expand, sizes, h, hs], fun n => ?_⟩
  refine instance_of_resolved hs (fun _ => rfl) fun f hf => ?_
  rw [h] at hf
  cases hf

theorem expand_of_genType (h : .genType ∈ d.families) :
    d.expand = (d.instantiate? 1).toList ++ [2, 3, 4].filterMap d.instantiate? := by
  rw [expand, sizes, if_pos h]
  cases h1 : d.instantiate? 1 <;> simp [Family.sizes, h1]

theorem expand_of_not_genType (hne : d.families ≠ []) (h : .genType ∉ d.families) :
    d.expand = [2, 3, 4].filterMap d.instantiate? := by
  unfold expand sizes
  rw [if_neg h]
  cases hf : d.families with
  | nil => exact absurd hf hne
  | cons f fs =>
    rw [hf] at h
    dsimp only
    rw [Family.sizes_of_ne fun hf => h (hf ▸ .head _)]

/-- A matrix has no size 1. -/
theorem instantiate?_one_of_mat (h : .mat ∈ d.families) : d.instantiate? 1 = none := by
  refine Option.eq_none_iff_forall_ne_some.2 fun s hs => ?_
  have htypes := (instantiate?_eq_some.1 hs).types
  obtain ⟨t, ht⟩ := exists_mem_zip htypes.length_eq (mem_families_iff.1 h)
  cases (List.forall₂_iff_zip.1 htypes).2 ht

theorem lockStep_expand (hne : d.families ≠ []) (hmixed : ¬d.Mixed) : d.LockStep d.expand := by
  by_cases hgen : .genType ∈ d.families
  · by_cases hother : ∃ f ∈ d.families, f ≠ .genType
    · -- the other family is that of matrices, or else the declaration is mixed
      have hmat : .mat ∈ d.families := by
        by_contra hmat
        obtain ⟨f, hf, hne⟩ := hother
        refine hmixed ⟨hgen, hmat, f, Family.mem_vectors_iff.2 ⟨hne, ?_⟩, hf⟩
        rintro rfl
        exact hmat hf
      rw [expand_of_genType hgen, instantiate?_one_of_mat hmat]
      exact lockStep_of_ne hother
    · have hall : ∀ f ∈ d.families, f = .genType := fun f hf =>
        Classical.not_not.1 fun hne => hother ⟨f, hf, hne⟩
      rw [expand, sizes, if_pos hgen]
      exact lockStep_of_genType hne hall
  · rw [expand_of_not_genType hne hgen]
    obtain ⟨f, hf⟩ := List.exists_mem_of_ne_nil _ hne
    exact lockStep_of_ne ⟨f, hf, fun h => hgen (h ▸ hf)⟩

/-- A mixed declaration starts with a signature of scalars, and goes on in lock step. -/
theorem exists_expand_of_mixed (h : d.Mixed) :
    ∃ s rest, d.expand = s :: rest ∧ d.Instance Pattern.ScalarFor s ∧ d.LockStep rest := by
  obtain ⟨hgen, hmat, f, hvector, hf⟩ := h
  have hscalar : ∀ f ∈ d.families, f.member? 1 = some f.scalar := fun f hf =>
    Family.member?_one fun hm => hmat (hm ▸ hf)
  obtain ⟨s, hs⟩ := exists_instantiate? fun f hf => ⟨_, hscalar f hf⟩
  refine ⟨s, _, by rw [expand_of_genType hgen, hs]; rfl, ?_,
    lockStep_of_ne ⟨f, hf, (Family.mem_vectors_iff.1 hvector).1⟩⟩
  refine instance_of_resolved hs (fun _ => rfl) fun g hg t ht => ?_
  exact Option.some_inj.1 (ht.symm.trans (hscalar g hg))

theorem scalarForVector_of_mixed (h : d.Mixed) (hs : d.Instance Pattern.ScalarFor s) :
    d.ScalarForVector s := by
  obtain ⟨-, -, f, hvector, hf⟩ := h
  obtain ⟨t, ht⟩ := exists_mem_zip hs.types.length_eq (mem_families_iff.1 hf)
  obtain rfl : t = f.scalar := (List.forall₂_iff_zip.1 hs.types).2 ht
  exact ⟨f, hvector, _, ht, f.isScalar_scalar⟩

theorem not_scalarForVector (hs : d.Instance (Pattern.StandsFor n) s) : ¬d.ScalarForVector s := by
  rintro ⟨f, hvector, t, ht, hscalar⟩
  have hmember : (n, t) ∈ f.members := (List.forall₂_iff_zip.1 hs.types).2 ht
  rw [Family.isScalar_of_member hvector hmember] at hscalar
  cases hscalar

theorem exists_instance_of_mem_expand (hmixed : ¬d.Mixed) (hs : s ∈ d.expand) :
    ∃ n, d.Instance (Pattern.StandsFor n) s := by
  by_cases hne : d.families = []
  · obtain ⟨s', hexpand, hs'⟩ := expand_of_families_nil hne
    rw [hexpand, List.mem_singleton] at hs
    exact ⟨0, hs ▸ hs' 0⟩
  · obtain ⟨sizes, -, -, hss⟩ := lockStep_expand hne hmixed
    exact exists_of_mem_right hss hs

/-- Expansion respects the families, but for mixed declarations. Without placeholders a declaration
is its own signature. Otherwise there is one signature for each size that the families share, unless
the declaration is mixed: then there is one more in front, in which each placeholder is a scalar.
Those are the declarations in which a vector ever becomes a scalar. -/
theorem expand_lockStep (d : Declaration) :
    (d.families = [] → ∃ s, d.expand = [s] ∧ ∀ n, d.Instance (Pattern.StandsFor n) s) ∧
      (d.families ≠ [] → ¬d.Mixed → d.LockStep d.expand) ∧
      (d.Mixed → ∃ s rest,
        d.expand = s :: rest ∧ d.Instance Pattern.ScalarFor s ∧ d.LockStep rest) ∧
      (d.Mixed ↔ ∃ s ∈ d.expand, d.ScalarForVector s) := by
  refine ⟨expand_of_families_nil, lockStep_expand, exists_expand_of_mixed, fun h => ?_, ?_⟩
  · obtain ⟨s, rest, hexpand, hs, -⟩ := exists_expand_of_mixed h
    exact ⟨s, hexpand ▸ .head _, scalarForVector_of_mixed h hs⟩
  · rintro ⟨s, hs, hscalar⟩
    by_contra hmixed
    obtain ⟨n, hn⟩ := exists_instance_of_mem_expand hmixed hs
    exact not_scalarForVector hn hscalar

/-- The first signature of this declaration takes an `int` for `ivec`. -/
theorem expand_scalar_for_ivec :
    ¬∀ (src : String) (d : Declaration), parse src = .ok d → d.families ≠ [] →
      d.LockStep d.expand := by
  intro h
  let d : Declaration := ⟨.placeholder .genType, "f", [.placeholder .ivec]⟩
  have hparse : parse "genType f(ivec)" = .ok d := by decide +kernel
  obtain ⟨sizes, -, -, hss⟩ := h _ d hparse (by decide)
  have hexpand : (⟨.float, "f", [.int]⟩ : Signature) ∈ d.expand := by decide
  obtain ⟨n, hn⟩ := exists_of_mem_right hss hexpand
  exact not_scalarForVector hn ⟨.ivec, by decide, .int, by decide, rfl⟩

end Expansions

end Declaration

end BatchShader
