/-
  The operators of the expression language.
-/

namespace BatchShader

inductive UnaryOp
  | neg
  | not
deriving DecidableEq, Repr

def UnaryOp.name : UnaryOp → String
  | neg => "Neg"
  | not => "Not"

inductive BinaryOp
  | add | sub | mul | div
  | less | lessEqual | greater | greaterEqual
  | equal | notEqual
  | and | or | xor
deriving DecidableEq, Repr

def BinaryOp.symbol : BinaryOp → String
  | add => "+"
  | sub => "-"
  | mul => "*"
  | div => "/"
  | less => "<"
  | lessEqual => "<="
  | greater => ">"
  | greaterEqual => ">="
  | equal => "=="
  | notEqual => "!="
  | and => "&&"
  | or => "||"
  | xor => "^^"

def BinaryOp.all : List BinaryOp :=
  [add, sub, mul, div, less, lessEqual, greater, greaterEqual, equal, notEqual, and, or, xor]

end BatchShader
