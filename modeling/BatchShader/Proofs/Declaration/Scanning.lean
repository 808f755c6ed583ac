import BatchShader.Declaration.Token
import Mathlib.Data.List.Sort
import Mathlib.Data.List.TakeWhile

/-
  Which tokens a text has.

  A run is a longest stretch of letters, digits and underscores, and a word is a run that no digit
  begins. `BeginsAt` says which token begins at a place of a text, and a character is `Stray` if it
  is no blank, no sign, and in no word. The scanner lists the tokens of a text, each with the number
  of its place, or reports the first stray character (`tokenize_exact`).

  The scanner is followed piece by piece: a piece is a blank, a sign or a word (`scan_piece`), and
  every text starts with a piece or with a stray character (`pieces_induction`). Tokens and stray
  characters of a text are those of its pieces, because no run goes across the seam between two
  pieces (`wordSpan_append`).
-/

namespace BatchShader

namespace Token

/-! ## Characters -/

theorem isAlphanum_iff {c : Char} :
    c.isAlphanum = true ↔ (65 ≤ c.toNat ∧ c.toNat ≤ 90) ∨ (97 ≤ c.toNat ∧ c.toNat ≤ 122) ∨
      (48 ≤ c.toNat ∧ c.toNat ≤ 57) := by
  have hclasses : c.isAlphanum = (c.isUpper || c.isLower || c.isDigit) := rfl
  have hupper : c.isUpper = decide (65 ≤ c.val ∧ c.val ≤ 90) := rfl
  have hlower : c.isLower = (decide (97 ≤ c.val) && decide (c.val ≤ 122)) := rfl
  have hdigit : c.isDigit = (decide (48 ≤ c.val) && decide (c.val ≤ 57)) := rfl
  rw [hclasses, hupper, hlower, hdigit]
  simp [UInt32.le_iff_toNat_le, or_assoc]

theorem punctuation?_eq_some {c : Char} {t : Token} :
    punctuation? c = some t ↔
      (c = '(' ∧ t = leftParen) ∨ (c = ')' ∧ t = rightParen) ∨ (c = ',' ∧ t = comma) := by
  constructor
  · intro h
    unfold punctuation? at h
    split at h <;> simp_all
  · rintro (⟨rfl, rfl⟩ | ⟨rfl, rfl⟩ | ⟨rfl, rfl⟩) <;> rfl

theorem continuesWord_of_isBlank {c : Char} (h : Text.isBlank c = true) :
    continuesWord c = false := by
  by_contra hc
  simp only [continuesWord, Bool.not_eq_false, Bool.or_eq_true, isAlphanum_iff, beq_iff_eq] at hc
  rcases hc with hc | rfl
  · simp [Text.isBlank] at h
    omega
  · cases h

theorem isBlank_of_sign {c : Char} {t : Token} (h : punctuation? c = some t) :
    Text.isBlank c = false := by
  obtain ⟨rfl, -⟩ | ⟨rfl, -⟩ | ⟨rfl, -⟩ := punctuation?_eq_some.1 h <;> decide

theorem sign_of_isBlank {c : Char} (h : Text.isBlank c = true) : punctuation? c = none := by
  refine Option.eq_none_iff_forall_ne_some.2 fun t ht => ?_
  rw [isBlank_of_sign ht] at h
  cases h

theorem continuesWord_of_sign {c : Char} {t : Token} (h : punctuation? c = some t) :
    continuesWord c = false := by
  obtain ⟨rfl, -⟩ | ⟨rfl, -⟩ | ⟨rfl, -⟩ := punctuation?_eq_some.1 h <;> decide

theorem sign_of_continuesWord {c : Char} (h : continuesWord c = true) : punctuation? c = none := by
  refine Option.eq_none_iff_forall_ne_some.2 fun t ht => ?_
  rw [continuesWord_of_sign ht] at h
  cases h

theorem isBlank_of_continuesWord {c : Char} (h : continuesWord c = true) :
    Text.isBlank c = false := by
  by_contra hblank
  rw [continuesWord_of_isBlank (Bool.not_eq_false _ ▸ hblank)] at h
  cases h

/-- A letter, a digit or an underscore stands at `i`. -/
def WordCharAt (cs : List Char) (i : Nat) : Prop := ∃ c, cs[i]? = some c ∧ continuesWord c = true

/-- A letter or an underscore, and then letters, digits and underscores. -/
def isWord : List Char → Bool
  | [] => false
  | c :: cs => startsWord c && cs.all continuesWord

theorem isWord_iff {w : List Char} :
    isWord w = true ↔
      ∃ c cs, w = c :: cs ∧ startsWord c = true ∧ ∀ d ∈ cs, continuesWord d = true := by
  cases w with
  | nil => simp [isWord]
  | cons d ds =>
    rw [isWord, Bool.and_eq_true, List.all_eq_true]
    refine ⟨fun h => ⟨d, ds, rfl, h⟩, ?_⟩
    rintro ⟨_, _, ⟨⟩, h⟩
    exact h

theorem continuesWord_of_isWord {w : List Char} (h : isWord w = true) {c : Char} (hc : c ∈ w) :
    continuesWord c = true := by
  obtain ⟨d, ds, rfl, hd, hds⟩ := isWord_iff.1 h
  rcases List.mem_cons.1 hc with rfl | hc
  · exact continuesWord_of_startsWord hd
  · exact hds c hc

theorem wordCharAt_of_isWord {w : List Char} (h : isWord w = true) {i : Nat} (hi : i < w.length) :
    WordCharAt w i :=
  ⟨_, List.getElem?_eq_getElem hi, continuesWord_of_isWord h (List.getElem_mem hi)⟩

theorem length_pos_of_isWord {w : List Char} (h : isWord w = true) : 0 < w.length := by
  obtain ⟨c, cs, rfl, -⟩ := isWord_iff.1 h
  exact Nat.zero_lt_succ _

/-! ## Pieces of a text -/

/-- A blank, a sign or a word, and the token that it is. -/
inductive Piece : List Char → Option Token → Prop
  | blank {c : Char} (h : Text.isBlank c = true) : Piece [c] none
  | sign {c : Char} {t : Token} (h : punctuation? c = some t) : Piece [c] (some t)
  | word {w : List Char} (h : isWord w = true) : Piece w (some (.word (String.ofList w)))

/-- No word goes on across the seam between two texts. -/
def Apart (p rest : List Char) : Prop := ¬(WordCharAt p (p.length - 1) ∧ WordCharAt rest 0)

section Scanning

variable {c : Char} {p rest : List Char} {start column : Nat}

theorem Piece.length_pos {t : Option Token} (hp : Piece p t) : 0 < p.length := by
  cases hp with
  | blank | sign => exact Nat.one_pos
  | word h => exact length_pos_of_isWord h

theorem apart_singleton (hc : continuesWord c = false) : Apart [c] rest := by
  rintro ⟨⟨d, hd, hcont⟩, -⟩
  cases hd
  rw [hc] at hcont
  cases hcont

theorem apart_of_stop (hstop : ¬WordCharAt rest 0) : Apart p rest := fun h => hstop h.2

/-- A text starts with a piece, unless its first character starts none. -/
theorem exists_piece (c : Char) (cs : List Char) :
    (∃ p t rest, c :: cs = p ++ rest ∧ Piece p t ∧ Apart p rest) ∨
      (Text.isBlank c = false ∧ punctuation? c = none ∧ startsWord c = false) := by
  cases hblank : Text.isBlank c with
  | true =>
    exact .inl ⟨[c], _, cs, rfl, .blank hblank, apart_singleton (continuesWord_of_isBlank hblank)⟩
  | false =>
    cases hsign : punctuation? c with
    | some t =>
      exact .inl ⟨[c], _, cs, rfl, .sign hsign, apart_singleton (continuesWord_of_sign hsign)⟩
    | none =>
      cases hstart : startsWord c with
      | false => exact .inr ⟨rfl, rfl, rfl⟩
      | true =>
        have hword : isWord (c :: cs.takeWhile continuesWord) = true :=
          isWord_iff.2 ⟨c, _, rfl, hstart, fun d => List.mem_takeWhile_imp⟩
        have hstop : ¬WordCharAt (cs.dropWhile continuesWord) 0 := by
          rintro ⟨d, hd, hcont⟩
          have hnot := List.head?_dropWhile_not continuesWord cs
          rw [List.head?_eq_getElem?, hd] at hnot
          simp [hcont] at hnot
        refine .inl ⟨_, _, cs.dropWhile continuesWord, ?_, .word hword, apart_of_stop hstop⟩
        rw [List.cons_append, List.takeWhile_append_dropWhile]

/-- Texts as they are read piece by piece, up to a character that starts no piece. -/
theorem pieces_induction {motive : List Char → Prop} (nil : motive [])
    (piece : ∀ p t rest, Piece p t → Apart p rest → motive rest → motive (p ++ rest))
    (stray : ∀ c rest, Text.isBlank c = false → punctuation? c = none → startsWord c = false →
      motive (c :: rest)) (cs : List Char) : motive cs := by
  induction hn : cs.length using Nat.strongRecOn generalizing cs with
  | ind n ih =>
    subst hn
    cases cs with
    | nil => exact nil
    | cons c cs =>
      obtain ⟨p, t, rest, heq, hp, hapart⟩ | ⟨hblank, hsign, hstart⟩ := exists_piece c cs
      · rw [heq] at ih ⊢
        refine piece p t rest hp hapart (ih rest.length ?_ rest rfl)
        have := hp.length_pos
        rw [List.length_append]
        omega
      · exact stray c cs hblank hsign hstart

theorem scanWord_append (seen : List Char) {w : List Char}
    (hw : ∀ c ∈ w, continuesWord c = true) :
    scanWord start seen column (w ++ rest) =
      scanWord start (w.reverse ++ seen) (column + w.length) rest := by
  induction w generalizing seen column with
  | nil => rfl
  | cons c w ih =>
    obtain ⟨hc, hw⟩ := List.forall_mem_cons.1 hw
    rw [List.cons_append, scanWord, if_pos hc, ih _ hw]
    simp [Nat.add_assoc, Nat.add_comm 1]

theorem scanWord_of_stop (seen : List Char) (hstop : ¬WordCharAt rest 0) :
    scanWord start seen column rest =
      (word (String.ofList seen.reverse)).before start (scan column rest) := by
  cases rest with
  | nil => rfl
  | cons c rest =>
    refine scanWord_of_not_continues start seen column c rest ?_
    exact Bool.eq_false_iff.2 fun hc => hstop ⟨c, rfl, hc⟩

theorem scan_word {w : List Char} (hw : isWord w = true) (hstop : ¬WordCharAt rest 0) :
    scan column (w ++ rest) =
      (word (String.ofList w)).before column (scan (column + w.length) rest) := by
  obtain ⟨c, cs, rfl, hc, hcs⟩ := isWord_iff.1 hw
  have hcont := continuesWord_of_startsWord hc
  rw [List.cons_append, scan, isBlank_of_continuesWord hcont, sign_of_continuesWord hcont]
  simp only [Bool.false_eq_true, if_false, if_pos hc]
  rw [scanWord_append [c] hcs, scanWord_of_stop _ hstop]
  simp [Nat.add_assoc, Nat.add_comm 1]

/-- A piece is scanned as its token, and what follows on its own. -/
theorem scan_piece {t : Option Token} (hp : Piece p t) (hapart : Apart p rest) :
    scan column (p ++ rest) =
      (scan (column + p.length) rest).map (t.toList.map (⟨·, column⟩) ++ ·) := by
  cases hp with
  | blank h =>
    rw [List.singleton_append, scan, if_pos h]
    exact (congrFun Except.map_id _).symm
  | sign h =>
    rw [List.singleton_append, scan, isBlank_of_sign h, h]
    rfl
  | word h =>
    have hlast := wordCharAt_of_isWord h (Nat.sub_one_lt_of_lt (length_pos_of_isWord h))
    exact scan_word h fun hrest => hapart ⟨hlast, hrest⟩

theorem scan_stray (hblank : Text.isBlank c = false) (hsign : punctuation? c = none)
    (hstart : startsWord c = false) :
    scan column (c :: rest) = .error ⟨.unexpectedCharacter c, column⟩ := by
  rw [scan, hblank, hsign, hstart]
  rfl

end Scanning

/-! ## Words of a text -/

/-- A longest run of letters, digits and underscores, from `start` to before `stop`. -/
structure Run (cs : List Char) (start stop : Nat) : Prop where
  lt : start < stop
  inside : ∀ i, start ≤ i → i < stop → WordCharAt cs i
  before : ∀ i, i + 1 = start → ¬WordCharAt cs i
  after : ¬WordCharAt cs stop

/-- A run that a letter or an underscore begins. -/
structure WordSpan (cs : List Char) (start stop : Nat) : Prop extends Run cs start stop where
  begins : ∃ c, cs[start]? = some c ∧ startsWord c = true

def InWord (cs : List Char) (i : Nat) : Prop :=
  ∃ start stop, WordSpan cs start stop ∧ start ≤ i ∧ i < stop

section Words

variable {p rest cs : List Char} {start stop i : Nat} {c : Char} {t : Token}

theorem charAt_singleton {d : Char} : [c][i]? = some d ↔ i = 0 ∧ d = c := by
  rw [List.getElem?_singleton, Option.ite_none_right_eq_some, Option.some_inj, eq_comm (a := c)]

theorem charAt_append :
    (p ++ rest)[i]? = some c ↔ p[i]? = some c ∨ ∃ j, i = p.length + j ∧ rest[j]? = some c := by
  by_cases hi : i < p.length
  · rw [List.getElem?_append_left hi]
    refine ⟨.inl, ?_⟩
    rintro (h | ⟨j, rfl, -⟩)
    · exact h
    · omega
  · obtain ⟨j, rfl⟩ : ∃ j, i = p.length + j := ⟨i - p.length, by omega⟩
    simp [List.getElem?_append_right]

theorem WordCharAt.lt_length (h : WordCharAt cs i) : i < cs.length := by
  obtain ⟨c, hc, -⟩ := h
  exact (List.getElem?_eq_some_iff.1 hc).1

theorem wordCharAt_append_left (h : i < p.length) : WordCharAt (p ++ rest) i ↔ WordCharAt p i := by
  simp [WordCharAt, List.getElem?_append_left h]

theorem wordCharAt_append_right : WordCharAt (p ++ rest) (p.length + i) ↔ WordCharAt rest i := by
  simp [WordCharAt, List.getElem?_append_right]

theorem Run.stop_le_length (h : Run cs start stop) : stop ≤ cs.length := by
  have hlt := h.lt
  have := (h.inside (stop - 1) (by omega) (by omega)).lt_length
  omega

theorem Run.of_append_left (h : Run (p ++ rest) start stop) (hstop : stop ≤ p.length) :
    Run p start stop where
  lt := h.lt
  inside i hi hi' := (wordCharAt_append_left (by omega)).1 (h.inside i hi hi')
  before i hi hb := h.before i hi ((wordCharAt_append_left hb.lt_length).2 hb)
  after ha := h.after ((wordCharAt_append_left ha.lt_length).2 ha)

theorem Run.of_append_right (h : Run (p ++ rest) (p.length + start) (p.length + stop)) :
    Run rest start stop where
  lt := Nat.lt_of_add_lt_add_left h.lt
  inside i hi hi' := wordCharAt_append_right.1 (h.inside _ (by omega) (by omega))
  before i hi hb := h.before (p.length + i) (by omega) (wordCharAt_append_right.2 hb)
  after ha := h.after (wordCharAt_append_right.2 ha)

theorem Run.append_left (h : Run p start stop) (hapart : Apart p rest) :
    Run (p ++ rest) start stop where
  lt := h.lt
  inside i hi hi' :=
    (wordCharAt_append_left (Nat.lt_of_lt_of_le hi' h.stop_le_length)).2 (h.inside i hi hi')
  before i hi hb := by
    have := h.lt
    have := h.stop_le_length
    exact h.before i hi ((wordCharAt_append_left (by omega)).1 hb)
  after ha := by
    have hlt := h.lt
    by_cases hstop : stop < p.length
    · exact h.after ((wordCharAt_append_left hstop).1 ha)
    · obtain rfl : stop = p.length := Nat.le_antisymm h.stop_le_length (Nat.not_lt.1 hstop)
      exact hapart ⟨h.inside _ (by omega) (by omega), wordCharAt_append_right.1 ha⟩

theorem Run.append_right (h : Run rest start stop) (hapart : Apart p rest) :
    Run (p ++ rest) (p.length + start) (p.length + stop) where
  lt := Nat.add_lt_add_left h.lt _
  inside i hi hi' := by
    obtain ⟨j, rfl⟩ : ∃ j, i = p.length + j := ⟨i - p.length, by omega⟩
    exact wordCharAt_append_right.2 (h.inside j (by omega) (by omega))
  before i hi hb := by
    by_cases hp : i < p.length
    · obtain rfl : start = 0 := by omega
      obtain rfl : i = p.length - 1 := by omega
      exact hapart ⟨(wordCharAt_append_left hp).1 hb, h.inside 0 (Nat.le_refl 0) h.lt⟩
    · obtain ⟨j, rfl⟩ : ∃ j, i = p.length + j := ⟨i - p.length, by omega⟩
      exact h.before j (by omega) (wordCharAt_append_right.1 hb)
  after ha := h.after (wordCharAt_append_right.1 ha)

/-- No run goes across the seam. -/
theorem Run.side (h : Run (p ++ rest) start stop) (hapart : Apart p rest) :
    stop ≤ p.length ∨ p.length ≤ start := by
  by_contra hacross
  have := not_or.1 hacross
  refine hapart ⟨?_, ?_⟩
  · exact (wordCharAt_append_left (by omega)).1 (h.inside _ (by omega) (by omega))
  · exact wordCharAt_append_right.1 (h.inside (p.length + 0) (by omega) (by omega))

/-- The words of two texts side by side are the words of both. -/
theorem wordSpan_append (hapart : Apart p rest) :
    WordSpan (p ++ rest) start stop ↔ WordSpan p start stop ∨
      ∃ s t, start = p.length + s ∧ stop = p.length + t ∧ WordSpan rest s t := by
  constructor
  · rintro ⟨hrun, c, hc, hstart⟩
    have hlt := hrun.lt
    rcases hrun.side hapart with hside | hside
    · rw [List.getElem?_append_left (by omega)] at hc
      exact .inl ⟨hrun.of_append_left hside, c, hc, hstart⟩
    · obtain ⟨s, rfl⟩ : ∃ s, start = p.length + s := ⟨start - p.length, by omega⟩
      obtain ⟨t, rfl⟩ : ∃ t, stop = p.length + t := ⟨stop - p.length, by omega⟩
      rw [List.getElem?_append_right (by omega), Nat.add_sub_cancel_left] at hc
      exact .inr ⟨s, t, rfl, rfl, hrun.of_append_right, c, hc, hstart⟩
  · rintro (⟨hrun, c, hc, hstart⟩ | ⟨s, t, rfl, rfl, hrun, c, hc, hstart⟩)
    · exact ⟨hrun.append_left hapart, c, charAt_append.2 (.inl hc), hstart⟩
    · exact ⟨hrun.append_right hapart, c, charAt_append.2 (.inr ⟨s, rfl, hc⟩), hstart⟩

theorem inWord_append_left (hapart : Apart p rest) (hi : i < p.length) :
    InWord (p ++ rest) i ↔ InWord p i := by
  constructor
  · rintro ⟨start, stop, h, hin⟩
    rcases (wordSpan_append hapart).1 h with hp | ⟨s, t, rfl, rfl, -⟩
    · exact ⟨start, stop, hp, hin⟩
    · omega
  · rintro ⟨start, stop, h, hin⟩
    exact ⟨start, stop, (wordSpan_append hapart).2 (.inl h), hin⟩

theorem inWord_append_right (hapart : Apart p rest) :
    InWord (p ++ rest) (p.length + i) ↔ InWord rest i := by
  constructor
  · rintro ⟨start, stop, h, hin⟩
    rcases (wordSpan_append hapart).1 h with hp | ⟨s, t, rfl, rfl, hrest⟩
    · have := hp.stop_le_length
      omega
    · exact ⟨s, t, hrest, by omega⟩
  · rintro ⟨s, t, h, hin⟩
    exact ⟨_, _, (wordSpan_append hapart).2 (.inr ⟨s, t, rfl, rfl, h⟩), by omega⟩

/-- A word on its own is the only word of itself. -/
theorem wordSpan_of_isWord {w : List Char} (hw : isWord w = true) :
    WordSpan w start stop ↔ start = 0 ∧ stop = w.length := by
  constructor
  · intro h
    have hlt := h.lt
    have hle := h.stop_le_length
    refine ⟨?_, Nat.le_antisymm hle (Nat.not_lt.1 fun hstop => ?_)⟩
    · by_contra hstart
      exact h.before (start - 1) (by omega) (wordCharAt_of_isWord hw (by omega))
    · exact h.after (wordCharAt_of_isWord hw hstop)
  · rintro ⟨rfl, rfl⟩
    obtain ⟨c, cs, rfl, hc, -⟩ := isWord_iff.1 hw
    refine ⟨⟨length_pos_of_isWord hw, fun i _ => wordCharAt_of_isWord hw, fun i hi => ?_,
      fun ha => ?_⟩, c, rfl, hc⟩
    · cases hi
    · exact absurd ha.lt_length (Nat.lt_irrefl _)

/-! ## Tokens of a text -/

/-- The text of a token. -/
def lexeme : Token → List Char
  | word s => s.toList
  | leftParen => ['(']
  | rightParen => [')']
  | comma => [',']
  | eof => []

/-- The token that begins at a place of a text. -/
inductive BeginsAt (cs : List Char) : Nat → Token → Prop
  | sign {i : Nat} {t : Token} (hc : ∃ c, cs[i]? = some c ∧ punctuation? c = some t) :
    BeginsAt cs i t
  | word {start stop : Nat} (h : WordSpan cs start stop) :
    BeginsAt cs start (.word (String.ofList (cs.extract start stop)))

/-- The character `c` at `i` is no blank, no sign, and in no word. -/
structure Stray (cs : List Char) (i : Nat) (c : Char) : Prop where
  char : cs[i]? = some c
  not_blank : Text.isBlank c = false
  not_sign : punctuation? c = none
  not_inWord : ¬InWord cs i

/-- The tokens of two texts side by side are the tokens of both. -/
theorem beginsAt_append (hapart : Apart p rest) :
    BeginsAt (p ++ rest) i t ↔ BeginsAt p i t ∨ ∃ j, i = p.length + j ∧ BeginsAt rest j t := by
  have hleft : ∀ {stop}, WordSpan p i stop → (p ++ rest).extract i stop = p.extract i stop := by
    intro stop h
    have hlt := h.lt
    have hle := h.stop_le_length
    rw [List.extract_eq_take_drop, List.drop_append_of_le_length (by omega),
      List.take_append_of_le_length (by rw [List.length_drop]; omega)]
  have hright : ∀ s t, (p ++ rest).extract (p.length + s) (p.length + t) = rest.extract s t := by
    intro s t
    rw [List.extract_eq_take_drop, List.drop_length_add_append, Nat.add_sub_add_left]
  constructor
  · rintro (⟨c, hc, ht⟩ | h)
    · rcases charAt_append.1 hc with hp | ⟨j, rfl, hrest⟩
      · exact .inl (.sign ⟨c, hp, ht⟩)
      · exact .inr ⟨j, rfl, .sign ⟨c, hrest, ht⟩⟩
    · rcases (wordSpan_append hapart).1 h with hp | ⟨s, t, rfl, rfl, hrest⟩
      · exact .inl (hleft hp ▸ .word hp)
      · exact .inr ⟨s, rfl, hright s t ▸ .word hrest⟩
  · rintro ((⟨c, hc, ht⟩ | h) | ⟨j, rfl, ⟨c, hc, ht⟩ | h⟩)
    · exact .sign ⟨c, charAt_append.2 (.inl hc), ht⟩
    · exact hleft h ▸ .word ((wordSpan_append hapart).2 (.inl h))
    · exact .sign ⟨c, charAt_append.2 (.inr ⟨j, rfl, hc⟩), ht⟩
    · exact hright _ _ ▸ .word ((wordSpan_append hapart).2 (.inr ⟨_, _, rfl, rfl, h⟩))

theorem stray_append (hapart : Apart p rest) :
    Stray (p ++ rest) i c ↔ Stray p i c ∨ ∃ j, i = p.length + j ∧ Stray rest j c := by
  constructor
  · rintro ⟨hc, hblank, hsign, hword⟩
    rcases charAt_append.1 hc with hp | ⟨j, rfl, hrest⟩
    · have hi := (List.getElem?_eq_some_iff.1 hp).1
      exact .inl ⟨hp, hblank, hsign, mt (inWord_append_left hapart hi).2 hword⟩
    · exact .inr ⟨j, rfl, hrest, hblank, hsign, mt (inWord_append_right hapart).2 hword⟩
  · rintro (⟨hc, hblank, hsign, hword⟩ | ⟨j, rfl, hc, hblank, hsign, hword⟩)
    · have hi := (List.getElem?_eq_some_iff.1 hc).1
      exact ⟨charAt_append.2 (.inl hc), hblank, hsign, mt (inWord_append_left hapart hi).1 hword⟩
    · exact ⟨charAt_append.2 (.inr ⟨j, rfl, hc⟩), hblank, hsign,
        mt (inWord_append_right hapart).1 hword⟩

end Words

/-! ## Lists of tokens -/

/-- The tokens `ts` of a text that begins at `column`: those that begin somewhere, each in the
column of its first character, in the order of the text. They spell it out but for the blanks, and
nothing in it is stray. -/
structure Lists (cs : List Char) (column : Nat) (ts : List PlacedToken) : Prop where
  mem_iff : ∀ t, t ∈ ts ↔ ∃ i, BeginsAt cs i t.token ∧ t.column = column + i
  ascending : ts.Pairwise fun t u => t.column < u.column
  spelling : ts.flatMap (·.token.lexeme) = cs.filter fun c => !Text.isBlank c
  not_stray : ∀ i c, ¬Stray cs i c

/-- The first stray character of a text. -/
structure FirstStray (cs : List Char) (i : Nat) (c : Char) : Prop where
  stray : Stray cs i c
  first : ∀ j d, Stray cs j d → i ≤ j

section Listing

variable {p rest : List Char} {column i : Nat} {ts us : List PlacedToken} {c : Char}

theorem BeginsAt.lt_length {cs : List Char} {t : Token} (h : BeginsAt cs i t) : i < cs.length := by
  cases h with
  | sign h =>
    obtain ⟨c, hc, -⟩ := h
    exact (List.getElem?_eq_some_iff.1 hc).1
  | word h => exact Nat.lt_of_lt_of_le h.lt h.stop_le_length

theorem lists_nil : Lists [] column [] where
  mem_iff t := by
    refine ⟨fun h => absurd h List.not_mem_nil, ?_⟩
    rintro ⟨i, h, -⟩
    cases h.lt_length
  ascending := .nil
  spelling := rfl
  not_stray i c h := by
    cases h.char

theorem Lists.append (hp : Lists p column ts) (hrest : Lists rest (column + p.length) us)
    (hapart : Apart p rest) : Lists (p ++ rest) column (ts ++ us) where
  mem_iff t := by
    rw [List.mem_append, hp.mem_iff, hrest.mem_iff]
    simp only [beginsAt_append hapart, or_and_right, exists_or]
    refine or_congr_right ⟨?_, ?_⟩
    · rintro ⟨j, hj, hcolumn⟩
      exact ⟨p.length + j, ⟨j, rfl, hj⟩, by omega⟩
    · rintro ⟨_, ⟨j, rfl, hj⟩, hcolumn⟩
      exact ⟨j, hj, by omega⟩
  ascending := by
    refine List.pairwise_append.2 ⟨hp.ascending, hrest.ascending, fun t ht u hu => ?_⟩
    obtain ⟨i, hi, ht⟩ := (hp.mem_iff t).1 ht
    obtain ⟨j, -, hu⟩ := (hrest.mem_iff u).1 hu
    have := hi.lt_length
    omega
  spelling := by rw [List.flatMap_append, List.filter_append, hp.spelling, hrest.spelling]
  not_stray i c h := by
    rcases (stray_append hapart).1 h with h | ⟨j, -, h⟩
    · exact hp.not_stray i c h
    · exact hrest.not_stray j c h

theorem beginsAt_singleton {t : Token} (hc : continuesWord c = false) :
    BeginsAt [c] i t ↔ i = 0 ∧ punctuation? c = some t := by
  constructor
  · rintro (⟨d, hd, ht⟩ | h)
    · obtain ⟨rfl, rfl⟩ := charAt_singleton.1 hd
      exact ⟨rfl, ht⟩
    · obtain ⟨d, hd, hcont⟩ := h.inside _ (Nat.le_refl _) h.lt
      obtain ⟨-, rfl⟩ := charAt_singleton.1 hd
      rw [hc] at hcont
      cases hcont
  · rintro ⟨rfl, ht⟩
    exact .sign ⟨c, rfl, ht⟩

theorem beginsAt_of_isWord {w : List Char} {t : Token} (hw : isWord w = true) :
    BeginsAt w i t ↔ i = 0 ∧ t = .word (String.ofList w) := by
  constructor
  · rintro (⟨c, hc, ht⟩ | h)
    · have hcont := continuesWord_of_isWord hw (List.mem_of_getElem? hc)
      rw [continuesWord_of_sign ht] at hcont
      cases hcont
    · obtain ⟨rfl, rfl⟩ := (wordSpan_of_isWord hw).1 h
      simp
  · rintro ⟨rfl, rfl⟩
    have h := BeginsAt.word ((wordSpan_of_isWord hw).2 ⟨rfl, rfl⟩)
    simpa using h

/-- A token that begins a text and is all of it but for blanks. -/
theorem lists_singleton {t : Token} (hbegins : ∀ i u, BeginsAt p i u ↔ i = 0 ∧ u = t)
    (hspelling : t.lexeme = p.filter fun c => !Text.isBlank c) (hstray : ∀ i c, ¬Stray p i c) :
    Lists p column [⟨t, column⟩] where
  mem_iff u := by
    obtain ⟨token, place⟩ := u
    rw [List.mem_singleton, PlacedToken.mk.injEq]
    simp only [hbegins]
    constructor
    · rintro ⟨rfl, rfl⟩
      exact ⟨0, ⟨rfl, rfl⟩, rfl⟩
    · rintro ⟨_, ⟨rfl, rfl⟩, rfl⟩
      exact ⟨rfl, rfl⟩
  ascending := List.pairwise_singleton _ _
  spelling := by simpa using hspelling
  not_stray := hstray

theorem lists_piece {t : Option Token} (hp : Piece p t) :
    Lists p column (t.toList.map (⟨·, column⟩)) := by
  cases hp with
  | blank h =>
    have hcont := continuesWord_of_isBlank h
    refine ⟨fun t => ?_, .nil, ?_, fun i d hd => ?_⟩
    · simp [beginsAt_singleton hcont, sign_of_isBlank h]
    · simp [h]
    · obtain ⟨-, rfl⟩ := charAt_singleton.1 hd.char
      exact absurd h (Bool.eq_false_iff.1 hd.not_blank)
  | @sign c t h =>
    refine lists_singleton (fun i u => ?_) ?_ fun i d hd => ?_
    · rw [beginsAt_singleton (continuesWord_of_sign h), h, Option.some_inj, eq_comm (a := t)]
    · have hlexeme : t.lexeme = [c] := by
        obtain ⟨rfl, rfl⟩ | ⟨rfl, rfl⟩ | ⟨rfl, rfl⟩ := punctuation?_eq_some.1 h <;> rfl
      simp [hlexeme, isBlank_of_sign h]
    · obtain ⟨-, rfl⟩ := charAt_singleton.1 hd.char
      rw [hd.not_sign] at h
      cases h
  | word h =>
    refine lists_singleton (fun i u => beginsAt_of_isWord h) ?_ fun i c hc => ?_
    · have hblank : ∀ c ∈ p, Text.isBlank c = false := fun c hc =>
        isBlank_of_continuesWord (continuesWord_of_isWord h hc)
      rw [List.filter_eq_self.2 fun c hc => by rw [hblank c hc]; rfl]
      exact String.toList_ofList
    · have hspan := (wordSpan_of_isWord h).2 ⟨rfl, rfl⟩
      have hi := (List.getElem?_eq_some_iff.1 hc.char).1
      exact hc.not_inWord ⟨0, p.length, hspan, Nat.zero_le i, hi⟩

theorem FirstStray.append (h : FirstStray rest i c) (hp : Lists p column ts)
    (hapart : Apart p rest) : FirstStray (p ++ rest) (p.length + i) c where
  stray := (stray_append hapart).2 (.inr ⟨i, rfl, h.stray⟩)
  first j d hj := by
    rcases (stray_append hapart).1 hj with hj | ⟨k, rfl, hk⟩
    · exact absurd hj (hp.not_stray j d)
    · exact Nat.add_le_add_left (h.first k d hk) _

theorem firstStray_cons (hblank : Text.isBlank c = false) (hsign : punctuation? c = none)
    (hstart : startsWord c = false) : FirstStray (c :: rest) 0 c where
  stray := by
    refine ⟨rfl, hblank, hsign, ?_⟩
    rintro ⟨start, stop, h, hstart', -⟩
    obtain rfl : start = 0 := Nat.le_zero.1 hstart'
    obtain ⟨d, hd, hbegins⟩ := h.begins
    cases hd
    rw [hstart] at hbegins
    cases hbegins
  first j d _ := Nat.zero_le j

/-- The scanner lists the tokens of a text and its end, or it stops at the first stray character. -/
theorem scan_lists (cs : List Char) (column : Nat) :
    (∃ ts, scan column cs = .ok (ts ++ [⟨eof, column + cs.length⟩]) ∧ Lists cs column ts) ∨
      ∃ i c, scan column cs = .error ⟨.unexpectedCharacter c, column + i⟩ ∧ FirstStray cs i c := by
  induction cs using pieces_induction generalizing column with
  | nil => exact .inl ⟨[], rfl, lists_nil⟩
  | piece p t rest hp hapart ih =>
    have hlists : Lists p column _ := lists_piece hp
    rw [scan_piece hp hapart, List.length_append, ← Nat.add_assoc]
    rcases ih (column + p.length) with ⟨ts, hts, hrest⟩ | ⟨i, c, hc, hstray⟩
    · refine .inl ⟨_, ?_, hlists.append hrest hapart⟩
      rw [hts, List.append_assoc]
      rfl
    · refine .inr ⟨p.length + i, c, ?_, hstray.append hlists hapart⟩
      rw [hc, Nat.add_assoc]
      rfl
  | stray c rest hblank hsign hstart =>
    exact .inr ⟨0, c, scan_stray hblank hsign hstart, firstStray_cons hblank hsign hstart⟩

/-- The tokens of a text are listed in one way only. -/
theorem Lists.unique {cs : List Char} (hts : Lists cs column ts) (hus : Lists cs column us) :
    ts = us := by
  have hmem : ∀ t, t ∈ ts ↔ t ∈ us := fun t => (hts.mem_iff t).trans (hus.mem_iff t).symm
  have : Std.Irrefl fun t u : PlacedToken => t.column < u.column := ⟨fun _ => Nat.lt_irrefl _⟩
  have : Std.Asymm fun t u : PlacedToken => t.column < u.column := ⟨fun _ _ => Nat.lt_asymm⟩
  exact hts.ascending.eq_of_mem_iff hus.ascending hmem

theorem FirstStray.unique {cs : List Char} {j : Nat} {d : Char} (hi : FirstStray cs i c)
    (hj : FirstStray cs j d) : i = j ∧ c = d := by
  obtain rfl : i = j := Nat.le_antisymm (hi.first j d hj.stray) (hj.first i c hi.stray)
  exact ⟨rfl, Option.some_inj.1 (hi.stray.char.symm.trans hj.stray.char)⟩

/-- The scanner is exact. It succeeds if and only if no character is stray, that is, if every
character but blanks and signs is in a word. It then gives the signs and the words of the text in
their order, each with the number of its first character, and the end of the text behind the last
character; and otherwise the first stray character with its number. Characters count from 1. -/
theorem tokenize_exact (src : String) :
    ((∃ ts, tokenize src = .ok ts) ↔ ∀ i c, ¬Stray src.toList i c) ∧
      (∀ ts, tokenize src = .ok ts ↔
        ∃ us, ts = us ++ [⟨eof, 1 + src.toList.length⟩] ∧ Lists src.toList 1 us) ∧
      ∀ e, tokenize src = .error e ↔
        ∃ i c, e = ⟨.unexpectedCharacter c, 1 + i⟩ ∧ FirstStray src.toList i c := by
  unfold tokenize
  rcases scan_lists src.toList 1 with ⟨us, hok, hus⟩ | ⟨i, c, herror, hfirst⟩
  · rw [hok]
    refine ⟨iff_of_true ⟨_, rfl⟩ hus.not_stray, fun ts => ⟨?_, ?_⟩, fun e => ⟨?_, ?_⟩⟩
    · rintro ⟨⟩
      exact ⟨us, rfl, hus⟩
    · rintro ⟨vs, rfl, hvs⟩
      rw [hus.unique hvs]
    · rintro ⟨⟩
    · rintro ⟨i, c, -, hfirst⟩
      exact absurd hfirst.stray (hus.not_stray i c)
  · rw [herror]
    refine ⟨iff_of_false ?_ fun h => h i c hfirst.stray, fun ts => ⟨?_, ?_⟩, fun e => ⟨?_, ?_⟩⟩
    · rintro ⟨_, ⟨⟩⟩
    · rintro ⟨⟩
    · rintro ⟨us, -, hus⟩
      exact absurd hfirst.stray (hus.not_stray i c)
    · rintro ⟨⟩
      exact ⟨i, c, rfl, hfirst⟩
    · rintro ⟨j, d, rfl, hj⟩
      obtain ⟨rfl, rfl⟩ := hfirst.unique hj
      rfl

/-- A digit begins no word. -/
example : tokenize "float f(2x)" = .error ⟨.unexpectedCharacter '2', 9⟩ := by decide +kernel

end Listing

end Token

end BatchShader
