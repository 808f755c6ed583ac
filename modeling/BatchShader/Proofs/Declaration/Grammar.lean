import BatchShader.Declaration.Grammar

/-
  The language of declarations.

  `tokens d` is a declaration `d` spelled out, and a sentence for `d` is `tokens d` up to the end
  of the list or to a token that ends the text, whatever follows that one. Each part of the parser
  has a lemma that says from which lists it reads what, and what it leaves (`readParams_eq_ok` for
  the parameters). The whole parser accepts the sentences for `d` as `d`, and nothing else
  (`ofTokens_eq_ok`).

  The loop over the parameters reads a word and a comma in each round but the last. `readRounds` is
  that loop with a bound on its rounds, and half the tokens, plus one, are enough for it
  (`readRounds_eq`).
-/

namespace BatchShader

/-! ## Sentences -/

/-- The words of parameters, with commas between them. -/
def Pattern.tokens (ps : List Pattern) : List Token :=
  (ps.map fun p => Token.word p.name).intersperse .comma

@[simp] theorem Pattern.tokens_singleton (p : Pattern) : Pattern.tokens [p] = [.word p.name] := rfl

@[simp] theorem Pattern.tokens_nil : Pattern.tokens [] = [] := rfl

theorem Pattern.tokens_cons (p : Pattern) {ps : List Pattern} (hps : ps ≠ []) :
    Pattern.tokens (p :: ps) = .word p.name :: .comma :: Pattern.tokens ps := by
  cases ps with
  | nil => exact absurd rfl hps
  | cons q qs => exact List.intersperse_cons_cons

/-- Parameters start with a word. -/
theorem Pattern.tokens_head? (p : Pattern) (ps : List Pattern) :
    (Pattern.tokens (p :: ps)).head? = some (.word p.name) := by
  cases ps <;> rfl

namespace Declaration

/-- A declaration spelled out. -/
def tokens (d : Declaration) : List Token :=
  .word d.result.name :: .word d.name :: .leftParen :: (Pattern.tokens d.params ++ [.rightParen])

/-- The text is over: no token is left, or the next one says so. -/
def Ended (ts : List Token) : Prop := ∀ t ∈ ts.head?, t = .eof

/-- A list that reads as a declaration. -/
structure Sentence (ts : List Token) (d : Declaration) : Prop where
  not_void : .concrete .void ∉ d.params
  tokens : ∃ rest, ts = d.tokens ++ rest ∧ Ended rest

/-! ## Parts of the parser -/

section Parts

variable {last : Nat} {ts rest : List PlacedToken}

theorem bind_eq_ok {α β : Type} {x : Except DeclError α} {f : α → Except DeclError β} {b : β} :
    x >>= f = .ok b ↔ ∃ a, x = .ok a ∧ f a = .ok b := by
  cases x with
  | error e => simp [bind, Except.bind]
  | ok a => simp [bind, Except.bind]

theorem peek_eq {t : Token} (ht : t ≠ .eof) :
    peek ts = t ↔ ∃ column rest, ts = ⟨t, column⟩ :: rest := by
  cases ts with
  | nil => simp [peek, ht.symm]
  | cons u us =>
    obtain ⟨token, column⟩ := u
    simp [peek]

theorem peek_eq_eof : peek ts = .eof ↔ Ended (ts.map PlacedToken.token) := by
  cases ts <;> simp [peek, Ended]

theorem patternOf_eq_ok {t : Token} {column : Nat} {p : Pattern} :
    patternOf t column = .ok p ↔ t = .word p.name := by
  constructor
  · intro h
    unfold patternOf at h
    split at h
    · next s =>
      split at h
      · next q hq =>
        cases h
        rw [Pattern.name_of_ofName? hq]
      · cases h
    · cases h
  · rintro rfl
    simp [patternOf, Pattern.ofName?_name]

theorem readPattern_cons (t : PlacedToken) (ts : List PlacedToken) :
    readPattern last (t :: ts) = (patternOf t.token t.column).map (·, ts) := rfl

theorem readPattern_eq_ok {p : Pattern} :
    readPattern last ts = .ok (p, rest) ↔ ∃ column, ts = ⟨.word p.name, column⟩ :: rest := by
  cases ts with
  | nil => simp [readPattern, patternOf, peek, Except.map]
  | cons t ts =>
    obtain ⟨token, column⟩ := t
    have hmap : readPattern last (⟨token, column⟩ :: ts) = .ok (p, rest) ↔
        patternOf token column = .ok p ∧ ts = rest := by
      rw [readPattern_cons]
      cases patternOf token column <;> simp [Except.map]
    simp [hmap, patternOf_eq_ok]

theorem readName_eq_ok {s : String} :
    readName last ts = .ok (s, rest) ↔ ∃ column, ts = ⟨.word s, column⟩ :: rest := by
  cases ts with
  | nil => simp [readName, peek]
  | cons t ts =>
    obtain ⟨token, column⟩ := t
    cases token <;> simp [readName, peek]

theorem readToken_eq_ok {t : Token} (ht : t ≠ .eof) :
    readToken last t ts = .ok rest ↔ ∃ column, ts = ⟨t, column⟩ :: rest := by
  cases ts with
  | nil => simp [readToken, peek, ht.symm]
  | cons u ts =>
    obtain ⟨token, column⟩ := u
    by_cases h : token = t <;> simp [readToken, peek, h]

end Parts

/-! ## Parameters -/

section Parameters

variable {last : Nat} {ps : List Pattern} {ts rest : List PlacedToken}

/-- Lists as the loop goes through them: a round that another one follows takes two tokens. -/
theorem rounds_induction {motive : List PlacedToken → Prop} (nil : motive [])
    (last_round : ∀ t ts, peek ts ≠ .comma → motive (t :: ts))
    (round : ∀ t column ts, motive ts → motive (t :: ⟨.comma, column⟩ :: ts)) (ts) : motive ts := by
  induction hn : ts.length using Nat.strongRecOn generalizing ts with
  | ind n ih =>
    subst hn
    cases ts with
    | nil => exact nil
    | cons t ts =>
      by_cases hcomma : peek ts = .comma
      · obtain ⟨column, more, rfl⟩ := (peek_eq (by decide)).1 hcomma
        exact round t column more (ih _ (by simp only [List.length_cons]; omega) more rfl)
      · exact last_round t ts hcomma

theorem readParams_comma (t : PlacedToken) (column : Nat) (ts : List PlacedToken) :
    readParams last (t :: ⟨.comma, column⟩ :: ts) = patternOf t.token t.column >>= fun p =>
      if p = .concrete .void then .error ⟨.voidParameter, column⟩
      else (readParams last ts).map fun r => (p :: r.1, r.2) := by
  rw [readParams]
  refine bind_congr fun p => ?_
  split
  · rfl
  · dsimp only
    cases readParams last ts <;> rfl

theorem readParams_stop (t : PlacedToken) (h : peek ts ≠ .comma) :
    readParams last (t :: ts) = patternOf t.token t.column >>= fun p =>
      if p = .concrete .void then .error ⟨.voidParameter, columnOf last ts⟩ else .ok ([p], ts) := by
  rw [readParams]
  refine bind_congr fun p => ?_
  split
  · rfl
  · split
    · exact absurd rfl h
    · rfl

/-- What is read are parameters with commas between them, up to where no comma follows. -/
structure ReadsParams (ps : List Pattern) (ts rest : List PlacedToken) : Prop where
  nonempty : ps ≠ []
  not_void : .concrete .void ∉ ps
  stops : peek rest ≠ .comma
  tokens : ∃ read, ts = read ++ rest ∧ read.map PlacedToken.token = Pattern.tokens ps

theorem ReadsParams.one {p : Pattern} {t : PlacedToken} (ht : t.token = .word p.name)
    (hp : p ≠ .concrete .void) (hts : peek ts ≠ .comma) : ReadsParams [p] (t :: ts) ts where
  nonempty := by simp
  not_void := by simpa using hp.symm
  stops := hts
  tokens := ⟨[t], rfl, by simp [ht]⟩

theorem ReadsParams.more {p : Pattern} {t : PlacedToken} {column : Nat}
    (h : ReadsParams ps ts rest) (ht : t.token = .word p.name) (hp : p ≠ .concrete .void) :
    ReadsParams (p :: ps) (t :: ⟨.comma, column⟩ :: ts) rest where
  nonempty := by simp
  not_void := by simpa using ⟨hp.symm, h.not_void⟩
  stops := h.stops
  tokens := by
    obtain ⟨read, rfl, hread⟩ := h.tokens
    refine ⟨t :: ⟨.comma, column⟩ :: read, rfl, ?_⟩
    simp [Pattern.tokens_cons p h.nonempty, ht, hread]

theorem readsParams_of_readParams (h : readParams last ts = .ok (ps, rest)) :
    ReadsParams ps ts rest := by
  induction ts using rounds_induction generalizing ps with
  | nil => cases h
  | last_round t ts hts =>
    rw [readParams_stop t hts] at h
    obtain ⟨p, htoken, h⟩ := bind_eq_ok.1 h
    split at h
    · cases h
    · next hp =>
      cases h
      exact .one (patternOf_eq_ok.1 htoken) hp hts
  | round t column ts ih =>
    rw [readParams_comma] at h
    obtain ⟨p, htoken, h⟩ := bind_eq_ok.1 h
    split at h
    · cases h
    · next hp =>
      cases hmore : readParams last ts with
      | error e =>
        rw [hmore] at h
        cases h
      | ok r =>
        rw [hmore] at h
        cases h
        exact (ih hmore).more (patternOf_eq_ok.1 htoken) hp

theorem readParams_of_readsParams (h : ReadsParams ps ts rest) :
    readParams last ts = .ok (ps, rest) := by
  obtain ⟨hnonempty, hvoid, hstops, read, rfl, hread⟩ := h
  induction ps generalizing read with
  | nil => exact absurd rfl hnonempty
  | cons p ps ih =>
    obtain ⟨hp, hps⟩ := not_or.1 (mt List.mem_cons.2 hvoid)
    cases ps with
    | nil =>
      obtain ⟨t, rfl, ht⟩ := List.map_eq_singleton_iff.1 hread
      rw [List.singleton_append, readParams_stop t hstops, patternOf_eq_ok.2 ht]
      exact if_neg (Ne.symm hp)
    | cons q qs =>
      rw [Pattern.tokens_cons p (by simp)] at hread
      obtain ⟨t, read, rfl, ht, hread⟩ := List.map_eq_cons_iff.1 hread
      obtain ⟨⟨_, column⟩, read, rfl, rfl, hread⟩ := List.map_eq_cons_iff.1 hread
      rw [List.cons_append, List.cons_append, readParams_comma, patternOf_eq_ok.2 ht]
      refine (if_neg (Ne.symm hp)).trans ?_
      rw [ih (by simp) hps read ‹_›]
      rfl

theorem readParams_eq_ok :
    readParams last ts = .ok (ps, rest) ↔ ReadsParams ps ts rest :=
  ⟨readsParams_of_readParams, readParams_of_readsParams⟩

/-- The parameters up to the closing parenthesis, possibly none. -/
def readParamList (last : Nat) (ts : List PlacedToken) :
    Except DeclError (List Pattern × List PlacedToken) :=
  if peek ts = .rightParen then .ok ([], ts) else readParams last ts

theorem readParamList_eq_ok {column : Nat} :
    readParamList last ts = .ok (ps, ⟨.rightParen, column⟩ :: rest) ↔
      .concrete .void ∉ ps ∧ ∃ read, ts = read ++ ⟨.rightParen, column⟩ :: rest ∧
        read.map PlacedToken.token = Pattern.tokens ps := by
  unfold readParamList
  split
  · next h =>
    obtain ⟨_, ts, rfl⟩ := (peek_eq (by decide)).1 h
    constructor
    · intro h
      cases h
      exact ⟨List.not_mem_nil, [], rfl, rfl⟩
    · rintro ⟨-, read, hts, hread⟩
      cases ps with
      | nil =>
        rw [Pattern.tokens_nil, List.map_eq_nil_iff] at hread
        rw [hts, hread, List.nil_append]
      | cons p ps =>
        -- parameters start with a word, and `ts` with a parenthesis
        have hhead := congrArg List.head? hread
        rw [Pattern.tokens_head?] at hhead
        cases read with
        | nil => cases hhead
        | cons t read =>
          cases hts
          cases hhead
  · next h =>
    rw [readParams_eq_ok]
    constructor
    · exact fun hps => ⟨hps.not_void, hps.tokens⟩
    · rintro ⟨hvoid, read, rfl, hread⟩
      refine ⟨?_, hvoid, by simp [peek], read, rfl, hread⟩
      rintro rfl
      rw [Pattern.tokens_nil, List.map_eq_nil_iff] at hread
      exact h (by rw [hread]; rfl)

end Parameters

/-! ## Declarations -/

section Whole

variable {ts : List PlacedToken} {d : Declaration}

/-- The column of the last token, where a fault past it is reported. -/
def lastColumn (ts : List PlacedToken) : Nat := (ts.getLast?.map PlacedToken.column).getD 1

/-- Nothing may follow a declaration. -/
def readEnd (last : Nat) (ts : List PlacedToken) : Except DeclError Unit :=
  if peek ts = .eof then .ok () else .error ⟨.trailingToken (peek ts), columnOf last ts⟩

theorem readEnd_eq_ok {last : Nat} :
    readEnd last ts = .ok () ↔ Ended (ts.map PlacedToken.token) := by
  rw [← peek_eq_eof, readEnd]
  split <;> simp [*]

/-- The parser as a sequence of reads. -/
theorem ofTokens_eq (ts : List PlacedToken) :
    ofTokens ts = do
      let (result, rest) ← readPattern (lastColumn ts) ts
      let (name, rest) ← readName (lastColumn ts) rest
      let rest ← readToken (lastColumn ts) .leftParen rest
      let (params, rest) ← readParamList (lastColumn ts) rest
      let rest ← readToken (lastColumn ts) .rightParen rest
      readEnd (lastColumn ts) rest
      return ⟨result, name, params⟩ := by
  have hend : ∀ {d rest}, (if peek rest = .eof then pure d
      else .error ⟨.trailingToken (peek rest), columnOf (lastColumn ts) rest⟩) =
      (readEnd (lastColumn ts) rest >>= fun _ => pure d : Except DeclError Declaration) := by
    intro d rest
    unfold readEnd
    split <;> rfl
  unfold ofTokens readParamList
  simp only [← hend]
  refine bind_congr fun r => bind_congr fun s => bind_congr fun rest => ?_
  split <;> rfl

/-- A list is read as a declaration if and only if it is a sentence for it. -/
theorem ofTokens_eq_ok : ofTokens ts = .ok d ↔ Sentence (ts.map PlacedToken.token) d := by
  rw [ofTokens_eq]
  simp only [bind_eq_ok, Prod.exists, readPattern_eq_ok, readName_eq_ok,
    readToken_eq_ok (t := .leftParen) (by decide), readToken_eq_ok (t := .rightParen) (by decide)]
  constructor
  · rintro ⟨result, _, ⟨_, rfl⟩, name, _, ⟨_, rfl⟩, _, ⟨_, rfl⟩, params, _, hparams, _, ⟨_, rfl⟩,
      ⟨⟩, hend, ⟨⟩⟩
    obtain ⟨hvoid, read, rfl, hread⟩ := readParamList_eq_ok.1 hparams
    refine ⟨hvoid, _, ?_, readEnd_eq_ok.1 hend⟩
    simp [tokens, hread]
  · rintro ⟨hvoid, rest, hts, hend⟩
    rw [tokens, List.cons_append, List.cons_append, List.cons_append, List.append_assoc] at hts
    obtain ⟨⟨_, _⟩, _, rfl, rfl, h⟩ := List.map_eq_cons_iff.1 hts
    obtain ⟨⟨_, _⟩, _, rfl, rfl, h'⟩ := List.map_eq_cons_iff.1 h
    obtain ⟨⟨_, _⟩, _, rfl, rfl, h''⟩ := List.map_eq_cons_iff.1 h'
    obtain ⟨read, _, rfl, hread, hrest⟩ := List.map_eq_append_iff.1 h''
    obtain ⟨⟨_, _⟩, _, rfl, rfl, rfl⟩ := List.map_eq_cons_iff.1 hrest
    exact ⟨_, _, ⟨_, rfl⟩, _, _, ⟨_, rfl⟩, _, ⟨_, rfl⟩, _, _,
      readParamList_eq_ok.2 ⟨hvoid, read, rfl, hread⟩, _, ⟨_, rfl⟩, (), readEnd_eq_ok.2 hend, rfl⟩

end Whole

/-! ## Rounds of the loop -/

section Rounds

variable {last rounds : Nat} {ts : List PlacedToken}

/-- The loop over the parameters, stopped after `rounds` rounds; `seen` are the ones read so far. -/
def readRounds (last : Nat) : Nat → List Pattern → List PlacedToken →
    ExceptT DeclError Option (List Pattern × List PlacedToken)
  | 0, _, _ => ExceptT.mk none
  | rounds + 1, seen, ts => do
    let (p, rest) ← readPattern last ts
    if p = .concrete .void then throw ⟨.voidParameter, columnOf last rest⟩
    else if peek rest = .comma then readRounds last rounds (seen ++ [p]) rest.tail
    else return (seen ++ [p], rest)

/-- The parameters up to the closing parenthesis, in at most `rounds` rounds. -/
def readParamListWithin (last rounds : Nat) (ts : List PlacedToken) :
    ExceptT DeclError Option (List Pattern × List PlacedToken) :=
  if peek ts = .rightParen then pure ([], ts) else readRounds last rounds [] ts

/-- The parser, stopped if its loop needs more than `rounds` rounds. -/
def ofTokensWithin (rounds : Nat) (ts : List PlacedToken) :
    ExceptT DeclError Option Declaration := do
  let (result, rest) ← readPattern (lastColumn ts) ts
  let (name, rest) ← readName (lastColumn ts) rest
  let rest ← readToken (lastColumn ts) .leftParen rest
  let (params, rest) ← readParamListWithin (lastColumn ts) rounds rest
  let rest ← readToken (lastColumn ts) .rightParen rest
  readEnd (lastColumn ts) rest
  return ⟨result, name, params⟩

/-- A step that is done without a loop comes before steps that end. -/
theorem monadLift_bind {α β : Type} {x : Except DeclError α}
    {f : α → ExceptT DeclError Option β} {g : α → Except DeclError β}
    (h : ∀ a, x = .ok a → f a = some (g a)) : (monadLift x >>= f) = some (x >>= g) := by
  cases x with
  | error e => rfl
  | ok a => exact h a rfl

/-- Two tokens are read in each round but the last, so the loop ends. -/
theorem readRounds_eq (seen : List Pattern) (h : ts.length < 2 * rounds) :
    readRounds last rounds seen ts =
      some ((readParams last ts).map fun r => (seen ++ r.1, r.2)) := by
  induction ts using rounds_induction generalizing rounds seen with
  | nil =>
    cases rounds with
    | zero => cases h
    | succ rounds => rfl
  | last_round t ts hts =>
    cases rounds with
    | zero => cases h
    | succ rounds =>
      rw [readRounds, readParams_stop t hts, readPattern_cons]
      cases patternOf t.token t.column with
      | error e => rfl
      | ok p =>
        change ite .. = some (Except.map _ (ite ..))
        by_cases hp : p = .concrete .void
        · rw [if_pos hp, if_pos hp]
          rfl
        · rw [if_neg hp, if_neg hts, if_neg hp]
          rfl
  | round t column ts ih =>
    cases rounds with
    | zero => cases h
    | succ rounds =>
      have hrest : ts.length < 2 * rounds := by
        simp only [List.length_cons] at h
        omega
      rw [readRounds, readParams_comma, readPattern_cons]
      cases patternOf t.token t.column with
      | error e => rfl
      | ok p =>
        change ite .. = some (Except.map _ (ite ..))
        by_cases hp : p = .concrete .void
        · rw [if_pos hp, if_pos hp]
          rfl
        · have hcomma : peek (⟨.comma, column⟩ :: ts) = .comma := rfl
          rw [if_neg hp, if_pos hcomma, if_neg hp, List.tail_cons, ih _ hrest]
          cases readParams last ts <;> simp [Except.map]

theorem readParamListWithin_eq (h : ts.length < 2 * rounds) :
    readParamListWithin last rounds ts = some (readParamList last ts) := by
  unfold readParamListWithin readParamList
  split
  · rfl
  · rw [readRounds_eq [] h]
    cases readParams last ts <;> rfl

theorem ofTokensWithin_eq (h : ts.length < 2 * rounds) :
    ofTokensWithin rounds ts = some (ofTokens ts) := by
  rw [ofTokens_eq]
  refine monadLift_bind fun r hr => monadLift_bind fun n hn => monadLift_bind fun rest hrest => ?_
  obtain ⟨_, hts⟩ := readPattern_eq_ok.1 hr
  obtain ⟨_, hr⟩ := readName_eq_ok.1 hn
  obtain ⟨_, hn⟩ := (readToken_eq_ok (by decide)).1 hrest
  have hlength : rest.length < 2 * rounds := by
    rw [hts, hr, hn] at h
    simp only [List.length_cons] at h
    omega
  rw [readParamListWithin_eq hlength]
  exact monadLift_bind fun params _ => monadLift_bind fun rest _ => monadLift_bind fun _ _ => rfl

/-- The parser accepts its grammar and ends. On each list, made by the scanner or not, half the
tokens, plus one, are enough rounds for its loop, and it reads a declaration if and only if the list
is a sentence for that one. -/
theorem ofTokens_accepts (ts : List PlacedToken) :
    ofTokensWithin (ts.length / 2 + 1) ts = some (ofTokens ts) ∧
      ∀ d, ofTokens ts = .ok d ↔ Sentence (ts.map PlacedToken.token) d :=
  ⟨ofTokensWithin_eq (by omega), fun _ => ofTokens_eq_ok⟩

end Rounds

end Declaration

end BatchShader
