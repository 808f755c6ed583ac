import BatchShader.Proofs.Declaration.Grammar
import Mathlib.Data.List.Basic

/-
  The column at which the parser reports an error.

  Tokens are viable if they begin some list that the parser accepts. The offending token of a
  rejected list is the one that ends its viable prefixes. `Expecting` is what may come next, in the
  states of an automaton that accepts the lists the parser accepts (`accepts_iff`); since each of
  its states can be completed, tokens are viable if and only if they run (`viable_iff`).

  Each read that fails does so at the token that the automaton refuses (`Blames`), and the error is
  at that token's column, with one exception: a `void` parameter is noticed after it has been read,
  and is reported at the token that follows it. Columns ascend in the tokens of a text
  (`placed_of_tokenize`), so that column is never the right one. `parse_error_column` states both
  cases, and `void_reported_late` is the shortest text of the second kind.
-/

namespace BatchShader

/-! ## Columns of a text -/

namespace Token

/-- Tokens of a text from `column` on: their columns ascend, and one ends the text. -/
structure Placed (column : Nat) (ts : List PlacedToken) : Prop where
  le_column : ∀ t ∈ ts, column ≤ t.column
  ascending : ts.Pairwise fun t u => t.column < u.column
  ended : .eof ∈ ts.map PlacedToken.token

section Scanning

variable {column start : Nat} {ts : List PlacedToken}

theorem placed_eof : Placed column [⟨eof, column⟩] where
  le_column := by simp
  ascending := by simp
  ended := by simp

theorem Placed.mono (h : Placed column ts) (hle : start ≤ column) : Placed start ts where
  le_column t ht := Nat.le_trans hle (h.le_column t ht)
  ascending := h.ascending
  ended := h.ended

theorem Placed.cons (t : Token) (h : Placed column ts) (hlt : start < column) :
    Placed start (⟨t, start⟩ :: ts) where
  le_column u hu := by
    rcases List.mem_cons.1 hu with rfl | hu
    · exact Nat.le_refl start
    · exact Nat.le_trans (Nat.le_of_lt hlt) (h.le_column u hu)
  ascending := .cons (fun u hu => Nat.lt_of_lt_of_le hlt (h.le_column u hu)) h.ascending
  ended := .tail _ h.ended

theorem before_eq_ok {t : Token} {rest : Except DeclError (List PlacedToken)} :
    t.before column rest = .ok ts ↔ ∃ us, rest = .ok us ∧ ts = ⟨t, column⟩ :: us := by
  cases rest <;> simp [before, Except.map, eq_comm]

/-- Where no word is open, and where one is. -/
theorem placed_of_scan (cs : List Char) :
    (∀ {column ts}, scan column cs = .ok ts → Placed column ts) ∧
      ∀ {start seen column ts}, start < column → scanWord start seen column cs = .ok ts →
        Placed start ts := by
  induction cs with
  | nil =>
    constructor
    · intro column ts h
      rw [scan] at h
      cases h
      exact placed_eof
    · intro start seen column ts hlt h
      rw [scanWord] at h
      cases h
      exact placed_eof.cons _ hlt
  | cons c cs ih =>
    have hscan : ∀ {column ts}, scan column (c :: cs) = .ok ts → Placed column ts := by
      intro column ts h
      have hlt : column < column + 1 := Nat.lt_succ_self column
      rw [scan] at h
      split at h
      · exact (ih.1 h).mono (Nat.le_of_lt hlt)
      · split at h
        · obtain ⟨us, hus, rfl⟩ := before_eq_ok.1 h
          exact (ih.1 hus).cons _ hlt
        · split at h
          · exact ih.2 hlt h
          · cases h
    refine ⟨hscan, ?_⟩
    intro start seen column ts hlt h
    cases hc : continuesWord c with
    | true =>
      rw [scanWord, if_pos hc] at h
      exact ih.2 (Nat.lt_succ_of_lt hlt) h
    | false =>
      rw [scanWord_of_not_continues start seen column c cs hc] at h
      obtain ⟨us, hus, rfl⟩ := before_eq_ok.1 h
      exact (hscan hus).cons _ hlt

theorem placed_of_tokenize {src : String} (h : tokenize src = .ok ts) : Placed 1 ts :=
  (placed_of_scan _).1 h

end Scanning

end Token

namespace Declaration

/-! ## What may come next -/

/-- Where a reader of a declaration is. -/
inductive Expecting
  | result
  | name
  | opening
  /-- At a parameter, the first one or one after a comma. -/
  | param (first : Bool)
  | separator
  | ending
  /-- The text is over, and all that follows is ignored. -/
  | past
deriving DecidableEq, Repr

namespace Expecting

/-- The words of parameters. -/
def paramWord (s : String) : Bool :=
  match Pattern.ofName? s with
  | some p => p ≠ .concrete .void
  | none => false

/-- Where a token leads. -/
def advance : Expecting → Token → Option Expecting
  | result, .word s => if (Pattern.ofName? s).isSome then some name else none
  | name, .word _ => some opening
  | opening, .leftParen => some (param true)
  | param _, .word s => if paramWord s then some separator else none
  | param true, .rightParen => some ending
  | separator, .comma => some (param false)
  | separator, .rightParen => some ending
  | ending, .eof => some past
  | past, _ => some past
  | _, _ => none

/-- Where tokens lead. -/
def run (x : Expecting) (ts : List Token) : Option Expecting := ts.foldlM advance x

/-- Tokens that lead to the end. -/
def Accepts (x : Expecting) (ts : List Token) : Prop :=
  x.run ts = some ending ∨ x.run ts = some past

section Automaton

variable {x y : Expecting} {t : Token} {ts us : List Token}

theorem run_cons (h : x.advance t = some y) : x.run (t :: ts) = y.run ts := by
  simp [run, h]

theorem run_after (h : x.run ts = some y) : x.run (ts ++ us) = y.run us := by
  rw [run, List.foldlM_append]
  exact congrArg (· >>= _) h

theorem isSome_run_of_append (h : (x.run (ts ++ us)).isSome) : (x.run ts).isSome := by
  cases hts : x.run ts with
  | none =>
    rw [run, List.foldlM_append] at h
    rw [show ts.foldlM advance x = none from hts] at h
    cases h
  | some y => rfl

theorem Accepts.isSome_run (h : x.Accepts ts) : (x.run ts).isSome := by
  rcases h with h | h <;> rw [h] <;> rfl

theorem accepts_cons : x.Accepts (t :: ts) ↔ ∃ y, x.advance t = some y ∧ y.Accepts ts := by
  cases h : x.advance t with
  | none => simp [Accepts, run, h]
  | some y => simp [Accepts, run, h]

theorem accepts_nil : x.Accepts [] ↔ x = ending ∨ x = past := by
  simp [Accepts, run]

theorem run_past (ts : List Token) : past.run ts = some past := by
  induction ts with
  | nil => rfl
  | cons t ts ih => exact (run_cons rfl).trans ih

theorem advance_eof (h : x.advance .eof = some y) : y = past := by
  cases x with
  | ending | past =>
    cases h
    rfl
  | param first => cases first <;> cases h
  | _ => cases h

/-- Nothing but what is ignored follows the end of the text. -/
theorem eq_past_of_run (h : x.run ts = some y) (heof : .eof ∈ ts) : y = past := by
  induction ts generalizing x with
  | nil => cases heof
  | cons t ts ih =>
    obtain ⟨z, hz, hts⟩ := Option.bind_eq_some_iff.1 h
    rcases List.mem_cons.1 heof with rfl | heof
    · obtain rfl := advance_eof hz
      exact Option.some_inj.1 (hts.symm.trans (run_past ts))
    · exact ih hts heof

theorem accepts_past (ts : List Token) : past.Accepts ts := .inr (run_past ts)

theorem accepts_ending : ending.Accepts ts ↔ Ended ts := by
  cases ts with
  | nil => simp [accepts_nil, Ended]
  | cons t ts =>
    rw [accepts_cons]
    cases t <;> simp [advance, Ended, accepts_past]

/-- Wherever a reader is, some tokens lead to the end. -/
theorem exists_accepts (x : Expecting) : ∃ ts, x.Accepts ts := by
  cases x with
  | result => exact ⟨[.word "float", .word "f", .leftParen, .rightParen], .inl (by decide)⟩
  | name => exact ⟨[.word "f", .leftParen, .rightParen], .inl (by decide)⟩
  | opening => exact ⟨[.leftParen, .rightParen], .inl (by decide)⟩
  | param first => exact ⟨[.word "float", .rightParen], .inl (by cases first <;> decide)⟩
  | separator => exact ⟨[.rightParen], .inl (by decide)⟩
  | ending => exact ⟨[], .inl rfl⟩
  | past => exact ⟨[], .inr rfl⟩

/-- Tokens that go on to the end are those that go on at all. -/
theorem exists_accepts_append : (∃ us, x.Accepts (ts ++ us)) ↔ (x.run ts).isSome := by
  constructor
  · rintro ⟨us, h⟩
    exact isSome_run_of_append h.isSome_run
  · intro h
    obtain ⟨y, hy⟩ := Option.isSome_iff_exists.1 h
    obtain ⟨us, hus⟩ := exists_accepts y
    exact ⟨us, by rwa [Accepts, run_after hy]⟩

end Automaton

/-! ## Steps of the automaton -/

section Steps

variable {first : Bool} {s : String} {p : Pattern} {t : Token} {y : Expecting}

theorem isSome_ofName? : (Pattern.ofName? s).isSome ↔ ∃ p : Pattern, s = p.name := by
  rw [Option.isSome_iff_exists]
  exact exists_congr fun p =>
    ⟨fun h => (Pattern.name_of_ofName? h).symm, fun h => h ▸ Pattern.ofName?_name p⟩

theorem paramWord_eq_true :
    paramWord s = true ↔ ∃ p : Pattern, p ≠ .concrete .void ∧ s = p.name := by
  constructor
  · intro h
    unfold paramWord at h
    split at h
    · next p hp => exact ⟨p, of_decide_eq_true h, (Pattern.name_of_ofName? hp).symm⟩
    · cases h
  · rintro ⟨p, hp, rfl⟩
    simp [paramWord, Pattern.ofName?_name, hp]

theorem advance_result :
    result.advance t = some y ↔ y = name ∧ ∃ p : Pattern, t = .word p.name := by
  cases t with
  | word s =>
    change (if (Pattern.ofName? s).isSome then some name else none) = some y ↔ _
    rw [Option.ite_none_right_eq_some, isSome_ofName?, Option.some_inj, eq_comm (a := name)]
    simp [and_comm]
  | _ => simp [advance]

theorem advance_name : name.advance t = some y ↔ y = opening ∧ ∃ s, t = .word s := by
  cases t <;> simp [advance, eq_comm]

theorem advance_opening : opening.advance t = some y ↔ y = param true ∧ t = .leftParen := by
  cases t <;> simp [advance, eq_comm]

theorem advance_param :
    (param first).advance t = some y ↔
      (first = true ∧ t = .rightParen ∧ y = ending) ∨
        (∃ p : Pattern, p ≠ .concrete .void ∧ t = .word p.name) ∧ y = separator := by
  cases t with
  | word s =>
    have hword : (param first).advance (.word s) =
        if paramWord s then some separator else none := by cases first <;> rfl
    rw [hword, Option.ite_none_right_eq_some, paramWord_eq_true]
    simp [eq_comm]
  | rightParen => cases first <;> simp [advance, eq_comm]
  | _ => cases first <;> simp [advance]

theorem advance_separator :
    separator.advance t = some y ↔
      (t = .comma ∧ y = param false) ∨ (t = .rightParen ∧ y = ending) := by
  cases t <;> simp [advance, eq_comm]

end Steps

/-! ## The automaton accepts what the parser accepts -/

section Language

variable {x : Expecting} {first : Bool} {ps : List Pattern} {ts : List Token}

theorem run_params (hps : ps ≠ []) (hvoid : .concrete .void ∉ ps) :
    (param first).run (Pattern.tokens ps) = some separator := by
  induction ps generalizing first with
  | nil => exact absurd rfl hps
  | cons p ps ih =>
    obtain ⟨hp, hrest⟩ := not_or.1 (mt List.mem_cons.2 hvoid)
    have hstep : (param first).advance (.word p.name) = some separator :=
      advance_param.2 (.inr ⟨⟨p, Ne.symm hp, rfl⟩, rfl⟩)
    cases ps with
    | nil => exact run_cons hstep
    | cons q qs =>
      rw [Pattern.tokens_cons p (by simp), run_cons hstep]
      exact (run_cons rfl).trans (ih (by simp) hrest)

theorem run_tokens {d : Declaration} (hvoid : .concrete .void ∉ d.params) :
    result.run d.tokens = some ending := by
  have hresult := advance_result.2 ⟨rfl, d.result, rfl⟩
  refine (run_cons hresult).trans ((run_cons rfl).trans ((run_cons rfl).trans ?_))
  cases h : d.params with
  | nil => rfl
  | cons p ps =>
    rw [← h, run_after (run_params (by simp [h]) hvoid)]
    rfl

/-- Before the end a token is needed. -/
theorem Accepts.exists_step (h : x.Accepts ts) (hending : x ≠ ending) (hpast : x ≠ past) :
    ∃ t us y, ts = t :: us ∧ x.advance t = some y ∧ y.Accepts us := by
  cases ts with
  | nil => exact absurd (accepts_nil.1 h) (not_or.2 ⟨hending, hpast⟩)
  | cons t us =>
    obtain ⟨y, hy, hus⟩ := accepts_cons.1 h
    exact ⟨t, us, y, rfl, hy, hus⟩

/-- After a parameter come more of them, in pairs of a comma and a word, and then the end. -/
theorem exists_params_of_separator (h : separator.Accepts ts) :
    ∃ ps rest, .concrete .void ∉ ps ∧ Ended rest ∧
      ∀ p : Pattern, .word p.name :: ts = Pattern.tokens (p :: ps) ++ .rightParen :: rest := by
  induction hn : ts.length using Nat.strongRecOn generalizing ts with
  | ind n ih =>
    subst hn
    obtain ⟨t, us, y, rfl, hy, hus⟩ := h.exists_step (by simp) (by simp)
    obtain ⟨rfl, rfl⟩ | ⟨rfl, rfl⟩ := advance_separator.1 hy
    · obtain ⟨t, vs, y, rfl, hy', hvs⟩ := hus.exists_step (by simp) (by simp)
      obtain ⟨hfirst, -⟩ | ⟨⟨q, hq, rfl⟩, rfl⟩ := advance_param.1 hy'
      · cases hfirst
      · obtain ⟨ps, rest, hvoid, hrest, hps⟩ :=
          ih vs.length (by simp only [List.length_cons]; omega) hvs rfl
        refine ⟨q :: ps, rest, ?_, hrest, fun p => ?_⟩
        · exact mt List.mem_cons.1 (not_or.2 ⟨Ne.symm hq, hvoid⟩)
        · rw [hps, Pattern.tokens_cons p (by simp)]
          rfl
    · exact ⟨[], us, List.not_mem_nil, accepts_ending.1 hus, fun p => rfl⟩

theorem exists_params_of_param (h : (param first).Accepts ts) :
    ∃ ps rest, .concrete .void ∉ ps ∧ Ended rest ∧
      ts = Pattern.tokens ps ++ .rightParen :: rest := by
  obtain ⟨t, us, y, rfl, hy, hus⟩ := h.exists_step (by simp) (by simp)
  obtain ⟨-, rfl, rfl⟩ | ⟨⟨p, hp, rfl⟩, rfl⟩ := advance_param.1 hy
  · exact ⟨[], us, List.not_mem_nil, accepts_ending.1 hus, rfl⟩
  · obtain ⟨ps, rest, hvoid, hrest, hps⟩ := exists_params_of_separator hus
    exact ⟨p :: ps, rest, mt List.mem_cons.1 (not_or.2 ⟨Ne.symm hp, hvoid⟩), hrest, hps p⟩

theorem accepts_result : result.Accepts ts ↔ ∃ d, Sentence ts d := by
  constructor
  · intro h
    obtain ⟨t, us, y, rfl, hy, hus⟩ := h.exists_step (by simp) (by simp)
    obtain ⟨rfl, p, rfl⟩ := advance_result.1 hy
    obtain ⟨t, vs, y, rfl, hy', hvs⟩ := hus.exists_step (by simp) (by simp)
    obtain ⟨rfl, s, rfl⟩ := advance_name.1 hy'
    obtain ⟨t, ws, y, rfl, hy'', hws⟩ := hvs.exists_step (by simp) (by simp)
    obtain ⟨rfl, rfl⟩ := advance_opening.1 hy''
    obtain ⟨ps, rest, hvoid, hrest, rfl⟩ := exists_params_of_param hws
    exact ⟨⟨p, s, ps⟩, hvoid, rest, by simp [tokens], hrest⟩
  · rintro ⟨d, hvoid, rest, rfl, hrest⟩
    rw [Accepts, run_after (run_tokens hvoid)]
    exact accepts_ending.2 hrest

end Language

end Expecting

/-! ## Viable tokens -/

open Expecting

/-- Tokens that can go on as a list that the parser accepts. -/
def Viable (ts : List PlacedToken) : Prop := ∃ more d, ofTokens (ts ++ more) = .ok d

/-- The token that ends the viable tokens at the start of a list. -/
structure Offending (ts : List PlacedToken) (i : Nat) : Prop where
  lt_length : i < ts.length
  viable : Viable (ts.take i)
  not_viable : ¬Viable (ts.take (i + 1))

/-- The word `void` where another type could stand. -/
def VoidParameter (ts : List PlacedToken) (i : Nat) : Prop :=
  ∃ column, ts[i]? = some ⟨.word "void", column⟩ ∧ Viable (ts.take i ++ [⟨.word "float", column⟩])

section Viability

variable {ts us : List PlacedToken} {i j : Nat}

theorem viable_iff : Viable ts ↔ (Expecting.result.run (ts.map PlacedToken.token)).isSome := by
  rw [← exists_accepts_append]
  simp only [accepts_result, Viable, ofTokens_eq_ok, List.map_append]
  constructor
  · rintro ⟨more, d, h⟩
    exact ⟨more.map PlacedToken.token, d, h⟩
  · rintro ⟨us, d, h⟩
    exact ⟨us.map fun t => ⟨t, 0⟩, d, by simpa [Function.comp_def] using h⟩

theorem Viable.of_append (h : Viable (ts ++ us)) : Viable ts := by
  rw [viable_iff, List.map_append] at h
  exact viable_iff.2 (isSome_run_of_append h)

theorem Viable.take_of_le (h : Viable (ts.take j)) (hle : i ≤ j) : Viable (ts.take i) := by
  rw [← Nat.add_sub_cancel' hle, List.take_add] at h
  exact h.of_append

theorem Offending.unique (hi : Offending ts i) (hj : Offending ts j) : i = j := by
  rcases Nat.lt_trichotomy i j with h | h | h
  · exact absurd (hj.viable.take_of_le h) hi.not_viable
  · exact h
  · exact absurd (hi.viable.take_of_le h) hj.not_viable

end Viability

/-! ## Failing reads -/

/-- Whether a reader meets the word `void` as a parameter. -/
def Expecting.atVoid : Expecting → Token → Bool
  | param _, t => t = .word "void"
  | _, _ => false

/-- An error on the way from `x` is due to the token at which the automaton stops. It is reported at
that token, or at the one that follows it. -/
def Blames (last : Nat) (x : Expecting) (ts : List PlacedToken) (e : DeclError) : Prop :=
  ∃ read t rest y, ts = read ++ t :: rest ∧ x.run (read.map PlacedToken.token) = some y ∧
    y.advance t.token = none ∧ e.column = if y.atVoid t.token then columnOf last rest else t.column

section Reads

variable {last : Nat} {first : Bool} {x y : Expecting} {t : PlacedToken}
  {ts read rest : List PlacedToken} {e : DeclError}

theorem bind_eq_error {α β : Type} {x : Except DeclError α} {f : α → Except DeclError β} :
    x >>= f = .error e ↔ x = .error e ∨ ∃ a, x = .ok a ∧ f a = .error e := by
  cases x with
  | error e' => simp [bind, Except.bind]
  | ok a => simp [bind, Except.bind]

theorem Blames.here (hstep : y.advance t.token = none)
    (he : e.column = if y.atVoid t.token then columnOf last rest else t.column) :
    Blames last y (t :: rest) e :=
  ⟨[], t, rest, y, rfl, rfl, hstep, he⟩

theorem Blames.append (hread : x.run (read.map PlacedToken.token) = some y)
    (h : Blames last y ts e) : Blames last x (read ++ ts) e := by
  obtain ⟨more, t, rest, z, rfl, hmore, hstep, he⟩ := h
  refine ⟨read ++ more, t, rest, z, (List.append_assoc ..).symm, ?_, hstep, he⟩
  rw [List.map_append, run_after hread, hmore]

theorem Blames.cons (hstep : x.advance t.token = some y) (h : Blames last y ts e) :
    Blames last x (t :: ts) e :=
  show Blames last x ([t] ++ ts) e from h.append (run_cons hstep)

theorem exists_cons_of_eof (h : .eof ∈ ts.map PlacedToken.token) : ∃ t rest, ts = t :: rest := by
  cases ts with
  | nil => cases h
  | cons t rest => exact ⟨t, rest, rfl⟩

theorem patternOf_eq_error {t : Token} {column : Nat} (h : patternOf t column = .error e) :
    (∀ p : Pattern, t ≠ .word p.name) ∧ e.column = column := by
  constructor
  · intro p hp
    rw [patternOf_eq_ok.2 hp] at h
    cases h
  · unfold patternOf at h
    split at h
    · split at h
      · cases h
      · cases h
        rfl
    · cases h
      rfl

theorem readPattern_blames (heof : .eof ∈ ts.map PlacedToken.token)
    (h : readPattern last ts = .error e) : Blames last .result ts e := by
  obtain ⟨t, rest, rfl⟩ := exists_cons_of_eof heof
  rw [readPattern_cons] at h
  cases ht : patternOf t.token t.column with
  | error e' =>
    rw [ht] at h
    cases h
    obtain ⟨hword, he⟩ := patternOf_eq_error ht
    refine .here (Option.eq_none_iff_forall_ne_some.2 fun y hy => ?_) he
    obtain ⟨-, p, hp⟩ := advance_result.1 hy
    exact hword p hp
  | ok p =>
    rw [ht] at h
    cases h

theorem readName_blames (heof : .eof ∈ ts.map PlacedToken.token)
    (h : readName last ts = .error e) : Blames last .name ts e := by
  obtain ⟨⟨token, column⟩, rest, rfl⟩ := exists_cons_of_eof heof
  unfold readName at h
  split at h
  · cases h
  · next t hword =>
    cases h
    refine .here (Option.eq_none_iff_forall_ne_some.2 fun y hy => ?_) rfl
    obtain ⟨-, s, hs⟩ := advance_name.1 hy
    exact hword s hs

theorem readToken_eq_error {expected : Token}
    (h : readToken last expected (t :: rest) = .error e) :
    t.token ≠ expected ∧ e.column = t.column := by
  unfold readToken at h
  split at h
  · cases h
  · next hne =>
    cases h
    exact ⟨hne, rfl⟩

theorem readOpening_blames (heof : .eof ∈ ts.map PlacedToken.token)
    (h : readToken last .leftParen ts = .error e) : Blames last .opening ts e := by
  obtain ⟨t, rest, rfl⟩ := exists_cons_of_eof heof
  obtain ⟨hne, he⟩ := readToken_eq_error h
  refine .here (Option.eq_none_iff_forall_ne_some.2 fun y hy => ?_) he
  exact hne (advance_opening.1 hy).2

theorem patternOf_blames (hfirst : first = true → t.token ≠ .rightParen)
    (h : patternOf t.token t.column = .error e) : Blames last (.param first) (t :: rest) e := by
  obtain ⟨hword, he⟩ := patternOf_eq_error h
  refine .here (Option.eq_none_iff_forall_ne_some.2 fun y hy => ?_) ?_
  · obtain ⟨h, ht, -⟩ | ⟨⟨p, -, hp⟩, -⟩ := advance_param.1 hy
    · exact hfirst h ht
    · exact hword p hp
  · have hvoid : t.token ≠ .word "void" := hword (.concrete .void)
    simp [atVoid, hvoid, he]

/-- The word has been read when it is refused, so that the next token is at hand. -/
theorem void_blames (ht : t.token = .word (Pattern.concrete .void).name)
    (he : e.column = columnOf last rest) : Blames last (.param first) (t :: rest) e := by
  refine .here (Option.eq_none_iff_forall_ne_some.2 fun y hy => ?_) ?_
  · obtain ⟨-, hright, -⟩ | ⟨⟨p, hp, hword⟩, -⟩ := advance_param.1 hy
    · rw [ht] at hright
      cases hright
    · rw [ht, Token.word.injEq] at hword
      exact hp (Option.some_inj.1 (by rw [← Pattern.ofName?_name p, ← hword, Pattern.ofName?_name]))
  · have hvoid : t.token = .word "void" := ht
    simp [atVoid, hvoid, he]

theorem readParams_blames (hfirst : first = true → peek ts ≠ .rightParen)
    (heof : .eof ∈ ts.map PlacedToken.token) (h : readParams last ts = .error e) :
    Blames last (.param first) ts e := by
  induction ts using rounds_induction generalizing first with
  | nil => cases heof
  | last_round t ts hts =>
    rw [readParams_stop t hts] at h
    rcases bind_eq_error.1 h with h | ⟨p, hp, h⟩
    · exact patternOf_blames hfirst h
    · split at h
      · next hvoid =>
        cases h
        exact void_blames (hvoid ▸ patternOf_eq_ok.1 hp) rfl
      · cases h
  | round t column ts ih =>
    rw [readParams_comma] at h
    rcases bind_eq_error.1 h with h | ⟨p, hp, h⟩
    · exact patternOf_blames hfirst h
    · have ht := patternOf_eq_ok.1 hp
      split at h
      · next hvoid =>
        cases h
        exact void_blames (hvoid ▸ ht) rfl
      · next hvoid =>
        cases hmore : readParams last ts with
        | ok r =>
          rw [hmore] at h
          cases h
        | error e' =>
          rw [hmore] at h
          cases h
          have heof' : .eof ∈ ts.map PlacedToken.token := by
            simpa [ht] using heof
          exact .cons (advance_param.2 (.inr ⟨⟨p, hvoid, ht⟩, rfl⟩))
            (.cons rfl (ih (by simp) heof' hmore))

theorem readParamList_blames (heof : .eof ∈ ts.map PlacedToken.token)
    (h : readParamList last ts = .error e) : Blames last (.param true) ts e := by
  unfold readParamList at h
  split at h
  · cases h
  · next hright => exact readParams_blames (fun _ => hright) heof h

/-- Where the parameters end: before the closing parenthesis if there are none, and else behind the
last one, where no comma follows. -/
theorem exists_run_of_readParamList {ps : List Pattern}
    (h : readParamList last ts = .ok (ps, rest)) :
    ∃ read y, ts = read ++ rest ∧ (param true).run (read.map PlacedToken.token) = some y ∧
      ((y = .param true ∧ peek rest = .rightParen) ∨ (y = .separator ∧ peek rest ≠ .comma)) := by
  unfold readParamList at h
  split at h
  · next hright =>
    cases h
    exact ⟨[], _, rfl, rfl, .inl ⟨rfl, hright⟩⟩
  · obtain ⟨hnonempty, hvoid, hstops, read, rfl, hread⟩ := readParams_eq_ok.1 h
    exact ⟨read, _, rfl, hread ▸ run_params hnonempty hvoid, .inr ⟨rfl, hstops⟩⟩

theorem readClosing_blames (heof : .eof ∈ ts.map PlacedToken.token)
    (hy : (y = .param true ∧ peek ts = .rightParen) ∨ (y = .separator ∧ peek ts ≠ .comma))
    (h : readToken last .rightParen ts = .error e) : Blames last y ts e := by
  obtain ⟨t, rest, rfl⟩ := exists_cons_of_eof heof
  obtain ⟨hne, he⟩ := readToken_eq_error h
  obtain ⟨rfl, hright⟩ | ⟨rfl, hcomma⟩ := hy
  · exact absurd hright hne
  · refine .here (Option.eq_none_iff_forall_ne_some.2 fun z hz => ?_) he
    obtain ⟨ht, -⟩ | ⟨ht, -⟩ := advance_separator.1 hz
    · exact hcomma ht
    · exact hne ht

theorem readEnd_blames (heof : .eof ∈ ts.map PlacedToken.token)
    (h : readEnd last ts = .error e) : Blames last .ending ts e := by
  obtain ⟨⟨token, column⟩, rest, rfl⟩ := exists_cons_of_eof heof
  unfold readEnd at h
  split at h
  · cases h
  · next hne =>
    cases h
    refine .here ?_ rfl
    cases token with
    | eof => exact absurd rfl hne
    | _ => rfl

end Reads

/-! ## Failing declarations -/

section Errors

variable {ts : List PlacedToken} {e : DeclError}

theorem ofTokens_blames (heof : .eof ∈ ts.map PlacedToken.token) (h : ofTokens ts = .error e) :
    Blames (lastColumn ts) .result ts e := by
  rw [ofTokens_eq] at h
  generalize lastColumn ts = last at h ⊢
  replace h := bind_eq_error.1 h
  rcases h with h | ⟨⟨result, rest⟩, hresult, h⟩
  · exact readPattern_blames heof h
  obtain ⟨_, rfl⟩ := readPattern_eq_ok.1 hresult
  replace heof : .eof ∈ rest.map PlacedToken.token := by simpa using heof
  refine .cons (advance_result.2 ⟨rfl, result, rfl⟩) ?_
  replace h := bind_eq_error.1 h
  rcases h with h | ⟨⟨name, rest⟩, hname, h⟩
  · exact readName_blames heof h
  obtain ⟨_, rfl⟩ := readName_eq_ok.1 hname
  replace heof : .eof ∈ rest.map PlacedToken.token := by simpa using heof
  refine .cons (advance_name.2 ⟨rfl, name, rfl⟩) ?_
  replace h := bind_eq_error.1 h
  rcases h with h | ⟨rest, hopening, h⟩
  · exact readOpening_blames heof h
  obtain ⟨_, rfl⟩ := (readToken_eq_ok (by decide)).1 hopening
  replace heof : .eof ∈ rest.map PlacedToken.token := by simpa using heof
  refine .cons (advance_opening.2 ⟨rfl, rfl⟩) ?_
  replace h := bind_eq_error.1 h
  rcases h with h | ⟨⟨params, rest⟩, hparams, h⟩
  · exact readParamList_blames heof h
  obtain ⟨read, y, rfl, hrun, hy⟩ := exists_run_of_readParamList hparams
  replace heof : .eof ∈ rest.map PlacedToken.token := by
    rw [List.map_append, List.mem_append] at heof
    refine heof.resolve_left fun hread => ?_
    obtain rfl := eq_past_of_run hrun hread
    simp at hy
  refine .append hrun ?_
  replace h := bind_eq_error.1 h
  rcases h with h | ⟨rest, hclosing, h⟩
  · exact readClosing_blames heof hy h
  obtain ⟨_, rfl⟩ := (readToken_eq_ok (by decide)).1 hclosing
  replace heof : .eof ∈ rest.map PlacedToken.token := by simpa using heof
  have hending : y.advance .rightParen = some .ending := by
    obtain ⟨rfl, -⟩ | ⟨rfl, -⟩ := hy <;> rfl
  refine .cons hending ?_
  replace h := bind_eq_error.1 h
  rcases h with h | ⟨_, -, h⟩
  · exact readEnd_blames heof h
  · cases h

/-- One more token is viable if the automaton has a step for it. -/
theorem viable_concat {read : List PlacedToken} {y : Expecting} (u : PlacedToken)
    (hrun : Expecting.result.run (read.map PlacedToken.token) = some y) :
    Viable (read ++ [u]) ↔ (y.advance u.token).isSome := by
  rw [viable_iff, List.map_append, run_after hrun]
  simp [run]

section Stop

variable {read rest : List PlacedToken} {t : PlacedToken} {y : Expecting}
  (hrun : Expecting.result.run (read.map PlacedToken.token) = some y)
  (hstop : y.advance t.token = none)

include hrun hstop

/-- Where the automaton stops is the offending token. -/
theorem offending_of_run : Offending (read ++ t :: rest) read.length where
  lt_length := by simp
  viable := by
    rw [List.take_left, viable_iff, hrun]
    rfl
  not_viable := by
    rw [List.take_length_add_append, List.take_succ_cons, List.take_zero, viable_concat t hrun,
      hstop]
    exact Bool.false_ne_true

theorem voidParameter_iff :
    VoidParameter (read ++ t :: rest) read.length ↔ y.atVoid t.token = true := by
  obtain ⟨token, column⟩ := t
  unfold VoidParameter
  rw [List.take_left, List.getElem?_append_right (Nat.le_refl _), Nat.sub_self]
  constructor
  · rintro ⟨_, h, hfloat⟩
    cases h
    rw [viable_concat _ hrun] at hfloat
    -- the other readers that stop at `void` stop at `float`, too
    cases y with
    | param first => exact decide_eq_true (rfl : Token.word "void" = .word "void")
    | result | name | past => cases hstop
    | opening | separator | ending => cases hfloat
  · intro h
    cases y with
    | param first =>
      obtain rfl := of_decide_eq_true h
      refine ⟨column, rfl, (viable_concat _ hrun).2 ?_⟩
      cases first <;> exact (by decide : (param false).advance (.word "float") |>.isSome)
    | _ => cases h

end Stop

/-- The end of the text comes after a `void` parameter. -/
theorem exists_next {column : Nat} {read rest : List PlacedToken} {t : PlacedToken} {y : Expecting}
    (hplaced : Token.Placed column (read ++ t :: rest))
    (hrun : Expecting.result.run (read.map PlacedToken.token) = some y)
    (hvoid : y.atVoid t.token = true) : ∃ u after, rest = u :: after ∧ t.column < u.column := by
  have hheof := hplaced.ended
  rw [List.map_append, List.map_cons, List.mem_append, List.mem_cons] at hheof
  obtain hread | ht | hrest := hheof
  · obtain rfl := eq_past_of_run hrun hread
    cases hvoid
  · rw [← ht] at hvoid
    cases y <;> cases hvoid
  · obtain ⟨u, after, rfl⟩ := exists_cons_of_eof hrest
    have hascending := (List.pairwise_append.1 hplaced.ascending).2.1
    exact ⟨u, after, rfl, List.rel_of_pairwise_cons hascending (.head _)⟩

/-- The column of an error is that of the offending token, except at a `void` parameter: there it is
the column of the token after it. -/
theorem parse_error_column {src : String} (hts : Token.tokenize src = .ok ts)
    (he : parse src = .error e) :
    ∃ i t, ts[i]? = some t ∧ (∀ j, Offending ts j ↔ j = i) ∧
      (e.column = t.column ↔ ¬VoidParameter ts i) ∧
      (VoidParameter ts i → ∃ u, ts[i + 1]? = some u ∧ e.column = u.column) := by
  have hplaced := Token.placed_of_tokenize hts
  have herror : ofTokens ts = .error e := by
    rw [parse, hts] at he
    exact he
  obtain ⟨read, t, rest, y, rfl, hrun, hstop, hcolumn⟩ := ofTokens_blames hplaced.ended herror
  have hoffending : Offending (read ++ t :: rest) read.length := offending_of_run hrun hstop
  refine ⟨read.length, t, by simp, fun j => ⟨fun hj => hj.unique hoffending, ?_⟩, ?_⟩
  · rintro rfl
    exact hoffending
  rw [voidParameter_iff hrun hstop]
  cases hvoid : y.atVoid t.token with
  | false => simp [hcolumn, hvoid]
  | true =>
    obtain ⟨u, after, rfl, hlt⟩ := exists_next hplaced hrun hvoid
    rw [hvoid, if_pos rfl] at hcolumn
    change e.column = u.column at hcolumn
    exact ⟨by simp [hcolumn, Nat.ne_of_gt hlt], fun _ => ⟨u, by simp, hcolumn⟩⟩

/-- The offending token of this text is the word at column 9; the error is at column 13. -/
theorem void_reported_late :
    ¬∀ (src : String) (ts : List PlacedToken) (e : DeclError), Token.tokenize src = .ok ts →
      parse src = .error e → ∀ i t, Offending ts i → ts[i]? = some t → e.column = t.column := by
  intro h
  let read : List PlacedToken := [⟨.word "float", 1⟩, ⟨.word "f", 7⟩, ⟨.leftParen, 8⟩]
  let void : PlacedToken := ⟨.word "void", 9⟩
  let rest : List PlacedToken := [⟨.rightParen, 13⟩, ⟨.eof, 14⟩]
  have hts : Token.tokenize "float f(void)" = .ok (read ++ void :: rest) := by decide +kernel
  have he : parse "float f(void)" = .error ⟨.voidParameter, 13⟩ := by decide +kernel
  have hoffending : Offending (read ++ void :: rest) 3 :=
    offending_of_run (y := .param true) (by decide) (by decide)
  exact absurd (h _ _ _ hts he 3 void hoffending rfl) (by decide)

/-- An unknown type is reported where it stands. -/
theorem parse_error_column_double :
    ∃ (ts : List PlacedToken) (e : DeclError), Token.tokenize "float f(double)" = .ok ts ∧
      parse "float f(double)" = .error e ∧ e.column = 9 ∧
      ∃ i t, ts[i]? = some t ∧ (∀ j, Offending ts j ↔ j = i) ∧
        (e.column = t.column ↔ ¬VoidParameter ts i) ∧
        (VoidParameter ts i → ∃ u, ts[i + 1]? = some u ∧ e.column = u.column) := by
  let ts : List PlacedToken := [⟨.word "float", 1⟩, ⟨.word "f", 7⟩, ⟨.leftParen, 8⟩,
    ⟨.word "double", 9⟩, ⟨.rightParen, 15⟩, ⟨.eof, 16⟩]
  have hts : Token.tokenize "float f(double)" = .ok ts := by decide +kernel
  have he : parse "float f(double)" = .error ⟨.unknownType "double", 9⟩ := by decide +kernel
  exact ⟨ts, _, hts, he, rfl, parse_error_column hts he⟩

end Errors

end Declaration

end BatchShader
