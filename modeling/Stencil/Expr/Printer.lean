import Stencil.Expr.Basic
import Stencil.Text.Quoted
import Stencil.Value.Display

/-!
# Printing expressions

An expression is printed with **every** operation in parentheses, so that the text shows
the order of evaluation without the table of precedences.
-/

namespace Stencil.Expr

/-- A literal: texts are quoted, null has a word. -/
def displayLiteral : Value → String
  | .str s => Text.quote s
  | .null => "null"
  | v => v.display

mutual

/-- The printed form of an expression. -/
def display : Expr → String
  | .literal v => displayLiteral v
  | .var name => name
  | .list items => "[" ++ Text.join ", " (displayItems items) ++ "]"
  | .map entries => "\x7b" ++ Text.join ", " (displayEntries entries) ++ "\x7d"
  | .attr target name => display target ++ "." ++ name
  | .index target position => display target ++ "[" ++ display position ++ "]"
  | .call callee args => display callee ++ "(" ++ Text.join ", " (displayItems args) ++ ")"
  | .filter input name args =>
    display input ++ "|" ++ name ++ "(" ++ Text.join ", " (displayItems args) ++ ")"
  | .test input name negated =>
    "(" ++ display input ++ " is " ++ (if negated then "not " else "") ++ name ++ ")"
  | .unary op e => "(" ++ op.sign ++ display e ++ ")"
  | .binary op left right =>
    "(" ++ display left ++ " " ++ op.symbol ++ " " ++ display right ++ ")"
  | .ternary cond yes no =>
    "(" ++ display cond ++ " ? " ++ display yes ++ " : " ++ display no ++ ")"

def displayItems : List Expr → List String
  | [] => []
  | e :: es => display e :: displayItems es

def displayEntries : List (Expr × Expr) → List String
  | [] => []
  | (k, v) :: es => (display k ++ ": " ++ display v) :: displayEntries es

end

end Stencil.Expr
