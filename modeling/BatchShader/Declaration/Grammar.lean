import BatchShader.Signature
import BatchShader.Declaration.Token

/-
  Reading a declaration: `type name ( [type {, type}] )`.

  A missing token at the end counts as the end of the text, so a token list need not carry one;
  a fault that lies past the last token is reported at the last token's column.
-/

namespace BatchShader.Declaration

/-- The token to be read next. -/
def peek : List PlacedToken → Token
  | [] => .eof
  | t :: _ => t.token

/-- The column of the token to be read next; `last` past the end. -/
def columnOf (last : Nat) : List PlacedToken → Nat
  | [] => last
  | t :: _ => t.column

/-- The pattern a token denotes, which must be a word. -/
def patternOf (t : Token) (column : Nat) : Except DeclError Pattern :=
  match t with
  | .word s =>
    match Pattern.ofName? s with
    | some p => .ok p
    | none => .error ⟨.unknownType s, column⟩
  | t => .error ⟨.expectedIdentifier t, column⟩

/-- Reads a type or a placeholder. -/
def readPattern (last : Nat) (ts : List PlacedToken) :
    Except DeclError (Pattern × List PlacedToken) :=
  (patternOf (peek ts) (columnOf last ts)).map (·, ts.tail)

/-- Reads a name. -/
def readName (last : Nat) (ts : List PlacedToken) :
    Except DeclError (String × List PlacedToken) :=
  match peek ts with
  | .word s => .ok (s, ts.tail)
  | t => .error ⟨.expectedIdentifier t, columnOf last ts⟩

/-- Reads one given token. -/
def readToken (last : Nat) (expected : Token) (ts : List PlacedToken) :
    Except DeclError (List PlacedToken) :=
  if peek ts = expected then .ok ts.tail
  else .error ⟨.expectedToken expected (peek ts), columnOf last ts⟩

/-- Reads parameters separated by commas, at least one. A `void` parameter is reported at the
token that follows it. -/
def readParams (last : Nat) : List PlacedToken → Except DeclError (List Pattern × List PlacedToken)
  | [] => .error ⟨.expectedIdentifier .eof, last⟩
  | t :: ts => do
    let p ← patternOf t.token t.column
    if p = .concrete .void then .error ⟨.voidParameter, columnOf last ts⟩
    else
      match ts with
      | ⟨.comma, _⟩ :: more => do
        let (ps, rest) ← readParams last more
        return (p :: ps, rest)
      | rest => return ([p], rest)

/-- Reads a whole token list as one declaration. -/
def ofTokens (ts : List PlacedToken) : Except DeclError Declaration := do
  let last := (ts.getLast?.map PlacedToken.column).getD 1
  let (result, ts) ← readPattern last ts
  let (name, ts) ← readName last ts
  let ts ← readToken last .leftParen ts
  let (params, ts) ← if peek ts = .rightParen then pure ([], ts) else readParams last ts
  let ts ← readToken last .rightParen ts
  if peek ts = .eof then return ⟨result, name, params⟩
  else .error ⟨.trailingToken (peek ts), columnOf last ts⟩

/-- Reads the text of a declaration. -/
def parse (s : String) : Except DeclError Declaration := do
  ofTokens (← Token.tokenize s)

end BatchShader.Declaration
