import BatchShader.Builtin.Registry
import BatchShader.Proofs.Sequence
import Mathlib.Data.List.Sort
import Mathlib.Data.String.Basic

/-
  What a registry holds.

  A builder that has been given overloads in turn holds the first of each key under its name, and
  has an entry for a name only if it holds an overload of that name (`Holds`): registering one more
  keeps it so. A declaration registers the overloads that it stands for, or none if it cannot be
  parsed. So what a finished registry finds, lists and counts is given by the list of all overloads
  that were declared (`IsOf`), whatever the declarations were.
-/

namespace BatchShader

open Stateful

variable {ι : Type}

/-! ## Overloads for different calls -/

namespace Overload

/-- What a call picks an overload by: the name and the parameter types. -/
def key (o : Overload ι) : String × List ShaderType := (o.signature.name, o.signature.params)

/-- The overloads whose key no earlier one has. -/
def firsts : List (Overload ι) → List (Overload ι)
  | [] => []
  | o :: rest => o :: (firsts rest).filter (·.key ≠ o.key)

theorem mem_of_mem_firsts {l : List (Overload ι)} {o : Overload ι} (h : o ∈ firsts l) : o ∈ l := by
  induction l with
  | nil => exact h
  | cons o' l ih =>
    rcases List.mem_cons.1 h with rfl | h
    · exact List.mem_cons_self
    · exact List.mem_cons_of_mem _ (ih (List.mem_filter.1 h).1)

theorem nodup_firsts (l : List (Overload ι)) : ((firsts l).map key).Nodup := by
  induction l with
  | nil => exact List.nodup_nil
  | cons o l ih =>
    rw [firsts, List.map_cons, List.nodup_cons]
    refine ⟨fun h => ?_, ih.sublist (List.filter_sublist.map key)⟩
    obtain ⟨o', ho', hkey⟩ := List.mem_map.1 h
    simp [hkey] at ho'

/-- The first overload with a key is kept. -/
theorem find?_firsts (l : List (Overload ι)) (k : String × List ShaderType) :
    (firsts l).find? (·.key = k) = l.find? (·.key = k) := by
  induction l with
  | nil => rfl
  | cons o l ih =>
    rw [firsts, List.find?_cons, List.find?_cons, ← ih, List.find?_filter]
    by_cases h : o.key = k
    · simp [h]
    · simp only [h, decide_false]
      congr 1
      funext o'
      by_cases h' : o'.key = k <;> simp [h', Ne.symm h]

theorem exists_key_firsts (l : List (Overload ι)) (k : String × List ShaderType) :
    (∃ o ∈ firsts l, o.key = k) ↔ ∃ o ∈ l, o.key = k := by
  have h := congrArg Option.isSome (find?_firsts l k)
  rw [Bool.eq_iff_iff, List.find?_isSome, List.find?_isSome] at h
  simpa only [decide_eq_true_eq] using h

theorem firsts_append_singleton (l : List (Overload ι)) (o : Overload ι) :
    firsts (l ++ [o]) = if ∃ o' ∈ l, o'.key = o.key then firsts l else firsts l ++ [o] := by
  induction l with
  | nil => simp [firsts]
  | cons o' l ih =>
    rw [List.cons_append, firsts, ih]
    by_cases h : o'.key = o.key
    · by_cases h' : ∃ o' ∈ l, o'.key = o.key <;> simp [firsts, h, h']
    · by_cases h' : ∃ o' ∈ l, o'.key = o.key <;> simp [firsts, h, h', Ne.symm h]

end Overload

open Overload (key firsts)

/-! ## Registering -/

namespace RegistryBuilder

/-- What a builder holds that has been given the overloads of a list in turn. -/
structure Holds (b : RegistryBuilder ι) (l : List (Overload ι)) : Prop where
  named : ∀ name, b.byName.getD name [] = (firsts l).filter (·.signature.name == name)
  mem : ∀ name, name ∈ b.byName ↔ ∃ o ∈ l, o.signature.name = name

theorem holds_empty : (empty : RegistryBuilder ι).Holds [] := by
  constructor
  · intro name
    simp [empty, firsts]
  · intro name
    simp [empty]

/-- Whether the key of an overload is taken shows among the overloads of its name. -/
theorem Holds.any_iff {b : RegistryBuilder ι} {l : List (Overload ι)} (h : b.Holds l)
    (o : Overload ι) :
    ((b.byName.getD o.signature.name []).any (·.signature.params == o.signature.params)) = true ↔
      ∃ o' ∈ l, o'.key = o.key := by
  rw [h.named, ← Overload.exists_key_firsts]
  simp [key]

theorem Holds.register {b : RegistryBuilder ι} {l : List (Overload ι)} (h : b.Holds l)
    (o : Overload ι) : (b.register o).Holds (l ++ [o]) := by
  -- An entry for the name changes nothing but the names, for it is made without overloads.
  have hentry : ∀ name, (b.byName.insertIfNew o.signature.name []).getD name [] =
      b.byName.getD name [] := by
    intro name
    rw [Std.HashMap.getD_insertIfNew]
    split
    · next hnew =>
      rw [← eq_of_beq hnew.1, Std.HashMap.getD_eq_fallback hnew.2]
    · rfl
  have hmem : ∀ name, name ∈ b.byName.insertIfNew o.signature.name [] ↔
      ∃ o' ∈ l ++ [o], o'.signature.name = name := by
    intro name
    rw [Std.HashMap.mem_insertIfNew, h.mem]
    simp [or_comm]
  unfold RegistryBuilder.register
  simp only [hentry]
  by_cases htaken : ∃ o' ∈ l, o'.key = o.key
  · rw [if_pos ((h.any_iff o).2 htaken)]
    constructor
    · intro name
      rw [Overload.firsts_append_singleton, if_pos htaken, ← h.named]
      exact hentry name
    · exact hmem
  · rw [if_neg (mt (h.any_iff o).1 htaken)]
    constructor
    · intro name
      rw [Overload.firsts_append_singleton, if_neg htaken, List.filter_append, ← h.named,
        Std.HashMap.getD_insert]
      by_cases hname : o.signature.name = name
      · simp [hname]
      · simp [hname, hentry]
    · intro name
      rw [Std.HashMap.mem_insert, hmem, beq_iff_eq]
      exact or_iff_right_of_imp fun hname => ⟨o, by simp, hname⟩

theorem Holds.registerAll {b : RegistryBuilder ι} {l : List (Overload ι)} (h : b.Holds l)
    (os : List (Overload ι)) : (os.foldl RegistryBuilder.register b).Holds (l ++ os) := by
  induction os generalizing b l with
  | nil => simpa using h
  | cons o os ih =>
    have hnext := ih (h.register o)
    rwa [List.append_assoc] at hnext

/-! ## Declaring -/

/-- The overloads that a declaration stands for; there are none if it cannot be parsed. -/
def expansion (line : String × (Signature → ι)) : List (Overload ι) :=
  match Declaration.parse line.1 with
  | .ok d => d.expand.map fun s => ⟨s, line.2 s⟩
  | .error _ => []

theorem expansion_of_ok {line : String × (Signature → ι)} {d : Declaration}
    (h : Declaration.parse line.1 = .ok d) :
    expansion line = d.expand.map fun s => ⟨s, line.2 s⟩ := by
  rw [expansion, h]

theorem mem_expansion {line : String × (Signature → ι)} {o : Overload ι} :
    o ∈ expansion line ↔
      ∃ d, Declaration.parse line.1 = .ok d ∧ ∃ s ∈ d.expand, ⟨s, line.2 s⟩ = o := by
  unfold expansion
  cases Declaration.parse line.1 with
  | ok d => simp
  | error e => simp

theorem run_declare_of_ok {line : String × (Signature → ι)} {d : Declaration}
    (h : Declaration.parse line.1 = .ok d) (b : RegistryBuilder ι) :
    (declare line.1 line.2).run b =
      .ok () ((expansion line).foldl RegistryBuilder.register b) := by
  rw [declare, expansion_of_ok h, h, List.foldl_map]
  exact run_forM (fun _ _ _ => rfl) b

/-- A declaration that cannot be parsed changes nothing. -/
theorem run_declare_of_error {text : String} {e : DeclError}
    (h : Declaration.parse text = .error e) (implement : Signature → ι) (b : RegistryBuilder ι) :
    (declare text implement).run b = .error (.error (.declaration e)) b := by
  rw [declare, h]
  rfl

theorem final_declare (line : String × (Signature → ι)) (b : RegistryBuilder ι) :
    final (declare line.1 line.2) b = (expansion line).foldl RegistryBuilder.register b := by
  unfold final
  cases h : Declaration.parse line.1 with
  | ok d => rw [run_declare_of_ok h]
  | error e => rw [run_declare_of_error h, expansion, h]; rfl

/-- A builder that has been given declarations, whether or not they can be parsed. -/
def declareEach (lines : List (String × (Signature → ι))) : RegistryBuilder ι :=
  lines.foldl (fun b line => final (declare line.1 line.2) b) empty

theorem holds_declareEach (lines : List (String × (Signature → ι))) :
    (declareEach lines).Holds (lines.flatMap expansion) := by
  simp only [declareEach, final_declare, ← List.foldl_flatMap]
  exact holds_empty.registerAll _

end RegistryBuilder

/-! ## Finishing -/

/-- The overloads of a list, gathered by name. -/
theorem perm_flatMap_named {names : List String} {l : List (Overload ι)} (hnames : names.Nodup)
    (hl : ∀ o ∈ l, o.signature.name ∈ names) :
    (names.flatMap fun name => l.filter (·.signature.name == name)).Perm l := by
  induction names generalizing l with
  | nil =>
    rw [List.eq_nil_iff_forall_not_mem.2 fun o ho => List.not_mem_nil (hl o ho)]
    exact .nil
  | cons name names ih =>
    rw [List.nodup_cons] at hnames
    let others := l.filter fun o => !(o.signature.name == name)
    have hothers : ∀ o ∈ others, o.signature.name ∈ names := by
      intro o ho
      obtain ⟨ho, hname⟩ := List.mem_filter.1 ho
      exact (List.mem_cons.1 (hl o ho)).resolve_left (by simpa using hname)
    have hsame : ∀ other ∈ names, l.filter (·.signature.name == other) =
        others.filter (·.signature.name == other) := by
      intro other hother
      rw [List.filter_filter]
      refine List.filter_congr fun o _ => ?_
      by_cases h : o.signature.name = other
      · have hne : other ≠ name := fun h' => hnames.1 (h' ▸ hother)
        simp [h, hne]
      · simp [h]
    rw [List.flatMap_cons, List.flatMap_congr hsame]
    exact ((ih hnames.2 hothers).append_left _).trans (List.filter_append_perm _ l)

namespace Registry

open RegistryBuilder (declare declareEach expansion mem_expansion holds_declareEach
  run_declare_of_ok run_declare_of_error final_declare expansion_of_ok)

theorem overloads_eq (r : Registry ι) : r.overloads = r.byName.keys.flatMap r.named := by
  rw [overloads, ← Std.HashMap.map_fst_toList_eq_keys, List.flatMap_map]
  refine List.flatMap_congr fun entry hentry => ?_
  rw [named, Std.HashMap.getD_eq_getD_getElem?,
    Std.HashMap.mem_toList_iff_getElem?_eq_some.1 hentry]
  rfl

theorem mem_of_mem_named {r : Registry ι} {name : String} {o : Overload ι} (h : o ∈ r.named name) :
    o ∈ r.overloads := by
  rw [overloads_eq]
  refine List.mem_flatMap.2 ⟨name, Std.HashMap.mem_keys.2 ?_, h⟩
  by_contra hname
  rw [named, Std.HashMap.getD_eq_fallback hname] at h
  exact List.not_mem_nil h

/-- A registry of the overloads of a list, of which the first for each call counts. -/
structure IsOf (r : Registry ι) (l : List (Overload ι)) : Prop where
  /-- No two have the same name and parameter types. -/
  nodup : (r.overloads.map key).Nodup
  overloads_perm : r.overloads.Perm (firsts l)
  /-- The one that is found is the first in the list. -/
  find?_eq : ∀ name params, r.find? name params = l.find? fun o => o.key = (name, params)
  /-- Those of a name are in the order of the list. -/
  named_eq : ∀ name, r.named name = (firsts l).filter (·.signature.name == name)
  ascending : r.names.Pairwise (· < ·)
  mem_names : ∀ name, name ∈ r.names ↔ r.named name ≠ []
  /-- Listing gives each once, by name. -/
  perm : r.toList.Perm r.overloads
  toList_eq : r.toList = r.names.flatMap r.named
  size_eq : r.size = r.toList.length

variable {b : RegistryBuilder ι} {l : List (Overload ι)}

theorem names_perm (b : RegistryBuilder ι) : b.finish.names.Perm b.byName.keys :=
  List.mergeSort_perm _ _

theorem nodup_names (b : RegistryBuilder ι) : b.finish.names.Nodup :=
  (names_perm b).nodup_iff.2 Std.HashMap.nodup_keys

theorem ascending_names (b : RegistryBuilder ι) : b.finish.names.Pairwise (· < ·) := by
  have hsorted : b.finish.names.Pairwise (· ≤ ·) := List.pairwise_mergeSort' (· ≤ ·) _
  exact (hsorted.and (nodup_names b)).imp fun h => lt_of_le_of_ne h.1 h.2

theorem mem_names_iff (h : b.Holds l) (name : String) :
    name ∈ b.finish.names ↔ ∃ o ∈ l, o.signature.name = name := by
  rw [(names_perm b).mem_iff, Std.HashMap.mem_keys, h.mem]

theorem toList_perm (b : RegistryBuilder ι) :
    b.finish.toList.Perm b.finish.overloads := by
  rw [overloads_eq]
  exact (names_perm b).flatMap_right _

theorem size_eq_length (b : RegistryBuilder ι) : b.finish.size = b.finish.overloads.length := by
  rw [overloads, List.length_flatMap, RegistryBuilder.finish, Std.HashMap.fold_eq_foldl_toList]
  rw [List.sum_eq_foldl, List.foldl_map]

theorem toList_perm_firsts (h : b.Holds l) : b.finish.toList.Perm (firsts l) := by
  have hnamed : b.finish.named = fun name => (firsts l).filter (·.signature.name == name) :=
    funext h.named
  rw [toList, hnamed]
  refine perm_flatMap_named (nodup_names b) fun o ho => ?_
  exact (mem_names_iff h _).2 ⟨o, Overload.mem_of_mem_firsts ho, rfl⟩

theorem isOf_finish (h : b.Holds l) : b.finish.IsOf l := by
  have hperm := toList_perm b
  have hfirsts := hperm.symm.trans (toList_perm_firsts h)
  refine {
    nodup := ?_
    overloads_perm := hfirsts
    find?_eq := ?_
    named_eq := h.named
    ascending := ascending_names b
    mem_names := ?_
    perm := hperm
    toList_eq := rfl
    size_eq := ?_ }
  · rw [(hfirsts.map key).nodup_iff]
    exact Overload.nodup_firsts l
  · intro name params
    rw [← Overload.find?_firsts, find?, named, RegistryBuilder.finish, h.named, List.find?_filter]
    congr 1
    funext o
    rw [Bool.eq_iff_iff]
    simp [key]
  · intro name
    rw [mem_names_iff h, named, RegistryBuilder.finish, h.named]
    constructor
    · rintro ⟨o, ho, hname⟩
      obtain ⟨o', ho', hkey⟩ := (Overload.exists_key_firsts l o.key).2 ⟨o, ho, rfl⟩
      have hsame : o'.signature.name = o.signature.name := congrArg Prod.fst hkey
      exact List.ne_nil_of_mem (List.mem_filter.2 ⟨ho', beq_iff_eq.2 (hsame.trans hname)⟩)
    · intro hsome
      obtain ⟨o, ho⟩ := List.exists_mem_of_ne_nil _ hsome
      obtain ⟨ho, hname⟩ := List.mem_filter.1 ho
      exact ⟨o, Overload.mem_of_mem_firsts ho, beq_iff_eq.1 hname⟩
  · rw [hperm.length_eq, size_eq_length]

/-- Whatever is declared, the first declaration of a call counts: the registry is one of the
overloads that the declarations stand for, in the order of the declarations and of the sizes of
each. One that cannot be parsed stands for none, and leaves a builder as it is. -/
theorem first_declaration_counts (lines : List (String × (Signature → ι))) :
    (declareEach lines).finish.IsOf (lines.flatMap expansion) ∧
      (∀ name params, ((declareEach lines).finish.find? name params).isSome = true ↔
        ∃ line ∈ lines, ∃ d, Declaration.parse line.1 = .ok d ∧
          ∃ s ∈ d.expand, s.name = name ∧ s.params = params) ∧
      ∀ (text : String) (implement : Signature → ι) (e : DeclError),
        Declaration.parse text = .error e → ∀ b : RegistryBuilder ι,
          (declare text implement).run b = .error (.error (.declaration e)) b := by
  have hof := isOf_finish (holds_declareEach lines)
  refine ⟨hof, ?_, fun text implement e h b => run_declare_of_error h implement b⟩
  intro name params
  rw [hof.find?_eq, List.find?_isSome]
  constructor
  · rintro ⟨o, ho, hkey⟩
    obtain ⟨line, hline, ho⟩ := List.mem_flatMap.1 ho
    obtain ⟨d, hd, s, hs, rfl⟩ := mem_expansion.1 ho
    exact ⟨line, hline, d, hd, s, hs, by simpa [key] using hkey⟩
  · rintro ⟨line, hline, d, hd, s, hs, rfl, rfl⟩
    have ho : ⟨s, line.2 s⟩ ∈ lines.flatMap expansion :=
      List.mem_flatMap.2 ⟨line, hline, mem_expansion.2 ⟨d, hd, s, hs, rfl⟩⟩
    exact ⟨_, ho, by simp [key]⟩

/-- Both declarations stand for `float mod(float, float)`. -/
example : (firsts ([("genType mod(genType, float)", fun _ => 1),
    ("genType mod(genType, genType)", fun _ => 2)].flatMap expansion)).map (·.body) =
    [1, 1, 1, 1, 2, 2, 2] := by decide +kernel

/-! ## Building -/

variable {P : Overload ι → Prop} {table : List (String × (Signature → ι))} {r : Registry ι}

theorem build_eq_ok : build table = .ok r ↔
    ∃ b, (table.forM fun line => declare line.1 line.2).run .empty = .ok () b ∧ b.finish = r := by
  unfold build
  cases (table.forM fun line => declare line.1 line.2).run .empty with
  | ok _ b => simp
  | error e b => simp

/-- The registry of a table is what its declarations give in turn. -/
theorem eq_of_build (h : build table = .ok r) : r = (declareEach table).finish := by
  obtain ⟨b, hrun, rfl⟩ := build_eq_ok.1 h
  rw [forM_eq_foldl hrun]
  rfl

/-- The overloads of a table's registry are the first ones for each call. -/
theorem overloads_of_build (h : build table = .ok r) :
    r.overloads.Perm (firsts (table.flatMap expansion)) := by
  rw [eq_of_build h]
  exact (isOf_finish (holds_declareEach table)).overloads_perm

theorem mem_of_build (h : build table = .ok r) {o : Overload ι} (ho : o ∈ r.overloads) :
    ∃ line ∈ table, ∃ d, Declaration.parse line.1 = .ok d ∧ ∃ s ∈ d.expand, ⟨s, line.2 s⟩ = o := by
  rw [(overloads_of_build h).mem_iff] at ho
  obtain ⟨line, hline, ho⟩ := List.mem_flatMap.1 (Overload.mem_of_mem_firsts ho)
  exact ⟨line, hline, mem_expansion.1 ho⟩

/-- What a lookup finds is in the registry. -/
theorem mem_of_lookup {name : String} {params : List ShaderType} {o : Overload ι}
    (h : r.lookup name params = .ok o) : o ∈ r.overloads := by
  unfold lookup at h
  split at h
  · next o' hfind =>
    rw [← Except.ok.inj h]
    exact mem_of_mem_named (List.mem_of_find?_eq_some hfind)
  · cases h

/-- An overload is found under its own name and for its own parameters. -/
theorem key_of_lookup (h : build table = .ok r) {name : String} {params : List ShaderType}
    {o : Overload ι} (ho : r.lookup name params = .ok o) : o.key = (name, params) := by
  have hfind : r.find? name params = some o := by
    unfold lookup at ho
    split at ho
    · next o' hfound => rw [hfound, Except.ok.inj ho]
    · cases ho
  rw [eq_of_build h, (isOf_finish (holds_declareEach table)).find?_eq] at hfind
  exact of_decide_eq_true (List.find?_some hfind :)

/-- Each call that a declaration stands for is found. -/
theorem exists_lookup_of_build (h : build table = .ok r) {line : String × (Signature → ι)}
    (hline : line ∈ table) {d : Declaration} (hd : Declaration.parse line.1 = .ok d)
    {s : Signature} (hs : s ∈ d.expand) :
    ∃ o, r.lookup s.name s.params = .ok o ∧ o.signature.name = s.name ∧
      o.signature.params = s.params := by
  have hfind : r.find? s.name s.params =
      (table.flatMap expansion).find? fun o => o.key = (s.name, s.params) := by
    rw [eq_of_build h]
    exact (isOf_finish (holds_declareEach table)).find?_eq ..
  cases hfound : (table.flatMap expansion).find? fun o => o.key = (s.name, s.params) with
  | none =>
    have hmem : ⟨s, line.2 s⟩ ∈ table.flatMap expansion :=
      List.mem_flatMap.2 ⟨line, hline, mem_expansion.2 ⟨d, hd, s, hs, rfl⟩⟩
    exact absurd (List.find?_eq_none.1 hfound _ hmem) (by simp [Overload.key])
  | some o =>
    have hkey : o.key = (s.name, s.params) := of_decide_eq_true (List.find?_some hfound :)
    exact ⟨o, by rw [lookup, hfind, hfound], Prod.ext_iff.1 hkey⟩

/-- If all declarations parse, there is a registry, and what holds of all their overloads holds of
all of its overloads. -/
theorem exists_build (h : ∀ line ∈ table, ∃ d, Declaration.parse line.1 = .ok d ∧
      ∀ s ∈ d.expand, P ⟨s, line.2 s⟩) :
    ∃ r, build table = .ok r ∧ ∀ o ∈ r.overloads, P o := by
  have hrun : (table.forM fun line => declare line.1 line.2).run .empty =
      .ok () (declareEach table) := by
    refine run_forM (fun line hline b => ?_) _
    obtain ⟨d, hd, -⟩ := h line hline
    rw [run_declare_of_ok hd, final_declare]
  have hbuild := build_eq_ok.2 ⟨_, hrun, rfl⟩
  refine ⟨_, hbuild, fun o ho => ?_⟩
  obtain ⟨line, hline, d, hd, s, hs, rfl⟩ := mem_of_build hbuild ho
  obtain ⟨d', hd', hP⟩ := h line hline
  obtain rfl : d' = d := Except.ok.inj (hd'.symm.trans hd)
  exact hP s hs

/-- The first overload of all is in the registry. -/
theorem first_mem_build {line : String × (Signature → ι)} {d : Declaration} {s : Signature}
    {rest : List Signature} (hd : Declaration.parse line.1 = .ok d) (hs : d.expand = s :: rest)
    (h : build (line :: table) = .ok r) : ⟨s, line.2 s⟩ ∈ r.overloads := by
  rw [(overloads_of_build h).mem_iff, List.flatMap_cons, expansion_of_ok hd, hs]
  exact List.mem_cons_self

end Registry

end BatchShader
