import BatchShader.Interpreter

/-
  Folding of constants.

  A call on constants becomes its value if the overload has a constant form. Operators, swizzles and
  constructors on constants are evaluated by the interpreter on a batch of one row. A selection or a
  branch on a constant condition becomes the side it takes; the other side is dropped unseen.
-/

namespace BatchShader.Folding

variable (registry : Registry Implementation)

/-- The constant that an operation on constants amounts to. -/
def reduce (e : Expr) : Outcome Expr := do
  let batch ← Batch.new 1
  let register ← (Interpreter.forConstants registry).evaluate batch e
  match register.rowValue? 0 with
  | some v => .ok (.const v)
  | none => Outcome.mismatch (.valueless e.type)

/-- Whether an expression is an operation whose operands are all constants. -/
def operandsConstant : Expr → Bool
  | .unary _ x _ => x.isConst
  | .binary _ l r _ => l.isConst && r.isConst
  | .swizzle base _ _ => base.isConst
  | .construct _ args => !args.isEmpty && args.all Expr.isConst
  | _ => false

/-- Reduces an operation if its operands are constants. -/
def settle (e : Expr) : Outcome Expr := if operandsConstant e then reduce registry e else .ok e

/-- A call with folded arguments: its value if it has one, else the call. -/
def foldCall (name : String) (args : List Expr) (t : ShaderType) : Outcome Expr := do
  match args.mapM Expr.value? with
  | none => .ok (.call name args t)
  | some values =>
    let overload ← registry.lookup name (values.map Value.type)
    match ← Builtin.evaluate overload values with
    | some v => .ok (.const v)
    | none => .ok (.call name args t)

mutual

/-- Folds an expression from its leaves upwards. -/
def foldExpr : Expr → Outcome Expr
  | .const v => .ok (.const v)
  | .var name t => .ok (.var name t)
  | .call name args t => do foldCall registry name (← foldExprs args) t
  | .unary op x t => do settle registry (.unary op (← foldExpr x) t)
  | .binary op l r t => do
    let l ← foldExpr l
    let r ← foldExpr r
    settle registry (.binary op l r t)
  | .select cond yes no t => do
    let cond ← foldExpr cond
    match cond.decided? with
    | some true => foldExpr yes
    | some false => foldExpr no
    | none =>
      let yes ← foldExpr yes
      let no ← foldExpr no
      return .select cond yes no t
  | .swizzle base indices t => do settle registry (.swizzle (← foldExpr base) indices t)
  | .construct t args => do settle registry (.construct t (← foldExprs args))

/-- Folds expressions from the first to the last. -/
def foldExprs : List Expr → Outcome (List Expr)
  | [] => .ok []
  | e :: es => do
    let e ← foldExpr e
    return e :: (← foldExprs es)

end

mutual

/-- Folds the parts of a statement, which stays a statement of its kind. -/
def foldStmt : Stmt → Outcome Stmt
  | .assign target mask e => return .assign target mask (← foldExpr registry e)
  | .branch cond yes no => do
    let cond ← foldExpr registry cond
    let yes ← foldBlock yes
    let no ← foldBlock no
    return .branch cond yes no
  | .discard => .ok .discard

/-- Folds statements. A branch on a constant condition is replaced by the statements it takes. -/
def foldBlock : List Stmt → Outcome (List Stmt)
  | [] => .ok []
  | .branch cond yes no :: rest => do
    let cond ← foldExpr registry cond
    match cond.decided? with
    | some true => return (← foldBlock yes) ++ (← foldBlock rest)
    | some false => return (← foldBlock no) ++ (← foldBlock rest)
    | none =>
      let yes ← foldBlock yes
      let no ← foldBlock no
      return .branch cond yes no :: (← foldBlock rest)
  | s :: rest => do
    let s ← foldStmt s
    return s :: (← foldBlock rest)

end

/-- Folds the body of a shader. -/
def foldShader (s : Shader) : Outcome Shader :=
  return ⟨s.stage, ← foldBlock registry s.body⟩

end BatchShader.Folding

namespace BatchShader.Interpreter

/-- Runs a shader on a batch: folds it if the settings say so, then executes its body. -/
def run (it : Interpreter) (shader : Shader) : Action Unit := do
  let batch ← get
  if it.config.batchRows < batch.rows then
    throw (.error (.batchTooLarge batch.rows it.config.batchRows))
  let body ← if it.config.foldConstants then ofExcept (Folding.foldBlock it.registry shader.body)
    else pure shader.body
  it.exec body

end BatchShader.Interpreter
