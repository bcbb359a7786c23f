import Stencil.Value.Basic

/-!
# Expressions

The trees of what stands in an output tag or in the arguments of other tags. How they
are written is told by `Expr.display`, how they are read by `Expr.parse`, what they mean
by `Expr.eval`.
-/

namespace Stencil

inductive UnaryOp where
  | not
  | neg
  | pos
  deriving DecidableEq, Repr

inductive BinaryOp where
  | or
  | and
  | eq
  | ne
  | lt
  | gt
  | le
  | ge
  | mem
  | notMem
  | range
  | concat
  | add
  | sub
  | mul
  | div
  | floorDiv
  | rem
  | pow
  deriving DecidableEq, Repr

/-- How the operator is written before its operand. -/
def UnaryOp.sign : UnaryOp → String
  | .not => "not "
  | .neg => "-"
  | .pos => "+"

/-- How the operator is spelled. -/
def BinaryOp.symbol : BinaryOp → String
  | .or => "or"
  | .and => "and"
  | .eq => "=="
  | .ne => "!="
  | .lt => "<"
  | .gt => ">"
  | .le => "<="
  | .ge => ">="
  | .mem => "in"
  | .notMem => "not in"
  | .range => ".."
  | .concat => "~"
  | .add => "+"
  | .sub => "-"
  | .mul => "*"
  | .div => "/"
  | .floorDiv => "//"
  | .rem => "%"
  | .pow => "**"

/-- An expression. -/
inductive Expr where
  | literal (v : Value)
  | var (name : String)
  | list (items : List Expr)
  | map (entries : List (Expr × Expr))
  | attr (target : Expr) (name : String)
  | index (target position : Expr)
  | call (callee : Expr) (args : List Expr)
  | filter (input : Expr) (name : String) (args : List Expr)
  | test (input : Expr) (name : String) (negated : Bool)
  | unary (op : UnaryOp) (e : Expr)
  | binary (op : BinaryOp) (left right : Expr)
  | ternary (cond yes no : Expr)

instance : Inhabited Expr := ⟨.literal .null⟩

end Stencil
