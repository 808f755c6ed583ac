import BatchShader.Text.Blank
import BatchShader.Text.Quoted

/-
  Tokens of a declaration, each with the column where it starts.

  A word is a longest run of ASCII letters, digits and underscores that starts with no digit.
  Blanks separate tokens, and every other character except the parentheses and the comma is an
  error. Columns count characters from 1; the end of the text is a token of its own.
-/

namespace BatchShader

/-! ## Tokens -/

inductive Token
  | word (text : String)
  | leftParen
  | rightParen
  | comma
  | eof
deriving DecidableEq, Repr

/-- How a token is named in an error message. -/
def Token.text : Token → String
  | word s => "Ident(" ++ Text.quoted s ++ ")"
  | leftParen => "LParen"
  | rightParen => "RParen"
  | comma => "Comma"
  | eof => "Eof"

/-- A token and the column of its first character. -/
structure PlacedToken where
  token : Token
  column : Nat
deriving DecidableEq, Repr

/-! ## Errors -/

/-- What is wrong with the text of a declaration. -/
inductive DeclFault
  | unexpectedCharacter (c : Char)
  | expectedIdentifier (found : Token)
  | expectedToken (expected found : Token)
  | unknownType (word : String)
  | voidParameter
  | trailingToken (found : Token)
deriving DecidableEq, Repr

def DeclFault.text : DeclFault → String
  | unexpectedCharacter c => "unexpected character " ++ Text.quotedChar c
  | expectedIdentifier t => "expected identifier, got " ++ t.text
  | expectedToken e t => "expected " ++ e.text ++ ", got " ++ t.text
  | unknownType s => "unknown type " ++ Text.quoted s
  | voidParameter => "parameters cannot be void"
  | trailingToken t => "trailing " ++ t.text ++ " after declaration"

/-- A fault and the column it is reported at. -/
structure DeclError where
  fault : DeclFault
  column : Nat
deriving DecidableEq, Repr

def DeclError.message (e : DeclError) : String :=
  "declaration error at column " ++ toString e.column ++ ": " ++ e.fault.text

/-! ## Scanning -/

namespace Token

def startsWord (c : Char) : Bool := c.isAlpha || c == '_'

def continuesWord (c : Char) : Bool := c.isAlphanum || c == '_'

theorem continuesWord_of_startsWord {c : Char} (h : startsWord c = true) :
    continuesWord c = true := by
  simp only [startsWord, continuesWord, Char.isAlphanum, Bool.or_eq_true] at *
  rcases h with h | h
  · exact .inl (.inl h)
  · exact .inr h

/-- The token a single character makes. -/
def punctuation? : Char → Option Token
  | '(' => some leftParen
  | ')' => some rightParen
  | ',' => some comma
  | _ => none

/-- A token in front of the tokens that follow it. -/
def before (t : Token) (column : Nat) (rest : Except DeclError (List PlacedToken)) :
    Except DeclError (List PlacedToken) :=
  rest.map (⟨t, column⟩ :: ·)

mutual

/-- The tokens of the text from `column` on, where no word is open. -/
def scan (column : Nat) : List Char → Except DeclError (List PlacedToken)
  | [] => .ok [⟨eof, column⟩]
  | c :: cs =>
    if Text.isBlank c then scan (column + 1) cs
    else
      match punctuation? c with
      | some t => t.before column (scan (column + 1) cs)
      | none =>
        if startsWord c then scanWord column [c] (column + 1) cs
        else .error ⟨.unexpectedCharacter c, column⟩

/-- The tokens of the text from `column` on, where a word is open: it began at `start`, and its
characters so far are `seen`, the last one first. -/
def scanWord (start : Nat) (seen : List Char) (column : Nat) :
    List Char → Except DeclError (List PlacedToken)
  | [] => .ok [⟨word (String.ofList seen.reverse), start⟩, ⟨eof, column⟩]
  | c :: cs =>
    if continuesWord c then scanWord start (c :: seen) (column + 1) cs
    else
      (word (String.ofList seen.reverse)).before start <|
        if Text.isBlank c then scan (column + 1) cs
        else
          match punctuation? c with
          | some t => t.before column (scan (column + 1) cs)
          | none => .error ⟨.unexpectedCharacter c, column⟩

end

/-- The tokens of a text. -/
def tokenize (s : String) : Except DeclError (List PlacedToken) := scan 1 s.toList

end Token

/-- A character that ends a word is scanned as if no word had been open. -/
theorem Token.scanWord_of_not_continues (start : Nat) (seen : List Char) (column : Nat) (c : Char)
    (cs : List Char) (h : continuesWord c = false) :
    scanWord start seen column (c :: cs) =
      (word (String.ofList seen.reverse)).before start (scan column (c :: cs)) := by
  have hs : startsWord c = false := by
    cases hc : startsWord c with
    | false => rfl
    | true => rw [continuesWord_of_startsWord hc] at h; cases h
  simp [scan, scanWord, h, hs]

end BatchShader
