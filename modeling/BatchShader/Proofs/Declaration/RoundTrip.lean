import BatchShader.Proofs.Declaration.Expansion
import BatchShader.Proofs.Declaration.Grammar
import BatchShader.Proofs.Declaration.Scanning

/-
  Signatures as texts.

  The text of a signature is put together from words, blanks and signs, so that it is scanned as the
  tokens that declare the signature (`scannedAs_text`). If its name is a word and no parameter is
  `void`, they are a sentence, and the parser gives the signature back (`parse_text`). All
  declarations without placeholders that the parser reads are of this kind (`exists_signature`).
-/

namespace BatchShader

/-! ## Texts made of pieces -/

namespace Token

/-- A text that is scanned as some tokens, wherever it begins. -/
def ScannedAs (cs : List Char) (us : List Token) : Prop :=
  ∀ column, ∃ ts, scan column cs = .ok ts ∧ ts.map PlacedToken.token = us

section Texts

variable {c : Char} {p rest : List Char} {us : List Token}

theorem scannedAs_nil : ScannedAs [] [eof] := fun column => ⟨[⟨eof, column⟩], rfl, rfl⟩

theorem ScannedAs.piece (h : ScannedAs rest us) {t : Option Token} (hp : Piece p t)
    (hapart : Apart p rest) : ScannedAs (p ++ rest) (t.toList ++ us) := by
  intro column
  obtain ⟨ts, hts, hus⟩ := h (column + p.length)
  refine ⟨_, by rw [scan_piece hp hapart, hts]; rfl, ?_⟩
  rw [List.map_append, hus]
  cases t <;> rfl

theorem ScannedAs.blank (h : ScannedAs rest us) (hc : Text.isBlank c = true) :
    ScannedAs (c :: rest) us :=
  h.piece (.blank hc) (apart_singleton (continuesWord_of_isBlank hc))

theorem ScannedAs.sign (h : ScannedAs rest us) {t : Token} (hc : punctuation? c = some t) :
    ScannedAs (c :: rest) (t :: us) :=
  h.piece (.sign hc) (apart_singleton (continuesWord_of_sign hc))

theorem ScannedAs.word (h : ScannedAs (c :: rest) us) {s : String}
    (hs : isWord s.toList = true) (hc : continuesWord c = false) :
    ScannedAs (s.toList ++ c :: rest) (.word s :: us) := by
  have hstop : ¬WordCharAt (c :: rest) 0 := by
    rintro ⟨d, hd, hcont⟩
    cases hd
    rw [hc] at hcont
    cases hcont
  have hpiece := h.piece (.word hs) (apart_of_stop hstop)
  rwa [String.ofList_toList] at hpiece

/-- The scanner makes words of words only. -/
theorem isWord_of_scan {cs : List Char} {column : Nat} {ts : List PlacedToken}
    (h : scan column cs = .ok ts) {s : String} (hs : .word s ∈ ts.map PlacedToken.token) :
    isWord s.toList = true := by
  induction cs using pieces_induction generalizing column ts with
  | nil =>
    cases h
    simp at hs
  | piece p t rest hp hapart ih =>
    rw [scan_piece hp hapart] at h
    cases hrest : scan (column + p.length) rest with
    | error e =>
      rw [hrest] at h
      cases h
    | ok us =>
      rw [hrest] at h
      cases h
      rw [List.map_append, List.mem_append] at hs
      rcases hs with hs | hs
      · cases hp with
        | blank => cases hs
        | sign ht =>
          simp only [Option.toList_some, List.map_cons, List.map_nil, List.mem_singleton] at hs
          rw [← hs, punctuation?_eq_some] at ht
          simp at ht
        | word hw =>
          obtain rfl : s = String.ofList p := by simpa using hs
          rwa [String.toList_ofList]
      · exact ih hrest hs
  | stray c rest hblank hsign hstart =>
    rw [scan_stray hblank hsign hstart] at h
    cases h

end Texts

end Token

/-! ## Signatures without placeholders -/

namespace Signature

/-- The declaration that a signature is of itself. -/
def declaration (s : Signature) : Declaration :=
  ⟨.concrete s.result, s.name, s.params.map .concrete⟩

/-- The name is a word, and no parameter is `void`. -/
structure Declarable (s : Signature) : Prop where
  name : Token.isWord s.name.toList = true
  params : .void ∉ s.params

variable {s s' : Signature}

theorem declaration_injective (h : s.declaration = s'.declaration) : s = s' := by
  obtain ⟨result, name, params⟩ := s
  obtain ⟨result', name', params'⟩ := s'
  have hconcrete : Function.Injective Pattern.concrete := fun _ _ => Pattern.concrete.inj
  simp only [declaration, Declaration.mk.injEq, Pattern.concrete.injEq,
    (List.map_injective_iff.2 hconcrete).eq_iff] at h
  obtain ⟨rfl, rfl, rfl⟩ := h
  rfl

theorem families_declaration (s : Signature) : s.declaration.families = [] := by
  refine List.eq_nil_iff_forall_not_mem.2 fun f hf => ?_
  rw [Declaration.mem_families_iff] at hf
  simp [Declaration.patterns, declaration] at hf

end Signature

namespace Declaration

section Concrete

variable {d : Declaration} {p : Pattern} {t : ShaderType}

/-- Families have no members of size 0. -/
theorem standsFor_zero (h : p.StandsFor 0 t) : p = .concrete t := by
  cases p with
  | concrete u => rw [show t = u from h]
  | placeholder f => cases f <;> simp [Pattern.StandsFor, Family.members] at h

/-- A declaration without placeholders is that of its expansion. -/
theorem exists_signature (h : d.families = []) : ∃ s, d = s.declaration ∧ d.expand = [s] := by
  obtain ⟨s, hexpand, hs⟩ := expand_of_families_nil h
  refine ⟨s, ?_, hexpand⟩
  obtain ⟨result, name, params⟩ := d
  obtain ⟨hname, htypes⟩ := hs 0
  obtain ⟨hresult, hparams⟩ := List.forall₂_cons.1 htypes
  have hconcrete : params = s.params.map .concrete := by
    refine List.forall₂_eq_eq_eq ▸ List.forall₂_map_right_iff.2 ?_
    exact hparams.imp fun _ _ => standsFor_zero
  rw [Signature.declaration, hname, ← standsFor_zero hresult, ← hconcrete]

theorem expand_declaration (s : Signature) : s.declaration.expand = [s] := by
  obtain ⟨s', heq, hexpand⟩ := exists_signature s.families_declaration
  rw [hexpand, Signature.declaration_injective heq]

end Concrete

/-! ## Texts of signatures -/

section Texts

open Token (ScannedAs scannedAs_nil)

variable {rest : List Char} {us : List Token} {d : Declaration} {s : Signature}

theorem isWord_name (t : ShaderType) : Token.isWord t.name.toList = true := by cases t <;> decide

/-- Parameters with commas and blanks between them. -/
theorem scannedAs_params (ps : List ShaderType) (h : ScannedAs (')' :: rest) us) :
    ScannedAs ((", ".intercalate (ps.map ShaderType.name)).toList ++ ')' :: rest)
      (Pattern.tokens (ps.map .concrete) ++ us) := by
  rw [String.toList_intercalate, List.map_map]
  induction ps with
  | nil => exact h
  | cons p ps ih =>
    cases ps with
    | nil =>
      rw [List.map_singleton, List.intercalate_singleton]
      exact h.word (isWord_name p) (by decide)
    | cons q ps =>
      have hseparated := (ih.blank (c := ' ') (by decide)).sign (c := ',') rfl
      have hparam := hseparated.word (isWord_name p) (by decide)
      rw [List.map_cons, List.map_cons, List.intercalate_cons_cons, List.map_cons,
        Pattern.tokens_cons _ (by simp)]
      simpa [Pattern.name] using hparam

theorem scannedAs_text (hname : Token.isWord s.name.toList = true) :
    ScannedAs s.text.toList (s.declaration.tokens ++ [.eof]) := by
  have hparams := scannedAs_params s.params (scannedAs_nil.sign (c := ')') rfl)
  have hname := (hparams.sign (c := '(') rfl).word hname (by decide)
  have htext := (hname.blank (c := ' ') (by decide)).word (isWord_name s.result) (by decide)
  simpa [Signature.text, Signature.callText, Signature.declaration, tokens, Pattern.name]
    using htext

theorem parse_eq_ok {src : String} :
    parse src = .ok d ↔
      ∃ ts, Token.tokenize src = .ok ts ∧ Sentence (ts.map PlacedToken.token) d := by
  simp only [parse, bind_eq_ok, ofTokens_eq_ok]

theorem parse_text (h : s.Declarable) : parse s.text = .ok s.declaration := by
  obtain ⟨ts, hts, htokens⟩ := scannedAs_text h.name 1
  refine parse_eq_ok.2 ⟨ts, hts, ?_, _, htokens, ?_⟩
  · simpa [Signature.declaration] using h.params
  · simp [Ended]

/-- What the parser reads without placeholders can be declared. -/
theorem declarable_of_parse {src : String} (h : parse src = .ok s.declaration) : s.Declarable := by
  obtain ⟨ts, hts, hvoid, rest, htokens, -⟩ := parse_eq_ok.1 h
  refine ⟨Token.isWord_of_scan hts ?_, ?_⟩
  · rw [htokens]
    simp [tokens, Signature.declaration]
  · simpa [Signature.declaration] using hvoid

/-- Signatures survive printing and parsing. The text of a signature that can be declared is read
as its own declaration, whose only expansion it is; each text that is read without placeholders is
the declaration of one signature, and is read from the text of that as well. So two signatures that
can be declared have different texts. -/
theorem text_round_trip :
    (∀ s : Signature, s.Declarable →
      parse s.text = .ok s.declaration ∧ s.declaration.families = [] ∧
        s.declaration.expand = [s]) ∧
      (∀ src d, parse src = .ok d → d.families = [] →
        ∃ s, d.expand = [s] ∧ parse s.text = .ok d) ∧
      ∀ s s' : Signature, s.Declarable → s'.Declarable → s.text = s'.text → s = s' := by
  refine ⟨fun s hs => ⟨parse_text hs, s.families_declaration, expand_declaration s⟩,
    fun src d hparse hfamilies => ?_, fun s s' hs hs' htext => ?_⟩
  · obtain ⟨s, rfl, hexpand⟩ := exists_signature hfamilies
    exact ⟨s, hexpand, parse_text (declarable_of_parse hparse)⟩
  · have hdeclaration := parse_text hs
    rw [htext, parse_text hs'] at hdeclaration
    exact (Signature.declaration_injective (Except.ok.inj hdeclaration)).symm

/-- A name may be the word of a type, and blanks do not matter. -/
theorem text_round_trip_vec :
    let s : Signature := ⟨.vec2, "vec", [.vec2, .bool]⟩
    s.Declarable ∧ s.text = "vec2 vec(vec2, bool)" ∧ parse s.text = .ok s.declaration ∧
      s.declaration.expand = [s] ∧
      ∃ d s', parse "float\tf( int )" = .ok d ∧ d.families = [] ∧ d.expand = [s'] ∧
        parse s'.text = .ok d := by
  intro s
  have hs : s.Declarable := ⟨by decide +kernel, by decide⟩
  obtain ⟨htext, -, hexpand⟩ := text_round_trip.1 s hs
  have hparse : parse "float\tf( int )" = .ok ⟨.concrete .float, "f", [.concrete .int]⟩ := by
    decide +kernel
  obtain ⟨s', hexpand', htext'⟩ := text_round_trip.2.1 _ _ hparse rfl
  exact ⟨hs, by decide +kernel, htext, hexpand, _, s', hparse, rfl, hexpand', htext'⟩

end Texts

end Declaration

end BatchShader
