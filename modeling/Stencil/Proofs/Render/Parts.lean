import Stencil.Program.Instr

/-!
# Parts

The **parts** of an expression are the expression itself and all those inside it, and the
parts of an instruction likewise. What holds of every part is what a walk over the whole
tree may use wherever it stands.
-/

namespace Stencil

mutual

/-- An expression and all expressions inside it. -/
def Expr.parts : Expr → List Expr
  | .literal v => [.literal v]
  | .var name => [.var name]
  | .list items => .list items :: Expr.partsOf items
  | .map entries => .map entries :: Expr.entryParts entries
  | .attr target name => .attr target name :: target.parts
  | .index target position => .index target position :: (target.parts ++ position.parts)
  | .call callee args => .call callee args :: (callee.parts ++ Expr.partsOf args)
  | .filter input name args => .filter input name args :: (input.parts ++ Expr.partsOf args)
  | .test input name negated => .test input name negated :: input.parts
  | .unary op e => .unary op e :: e.parts
  | .binary op left right => .binary op left right :: (left.parts ++ right.parts)
  | .ternary cond yes no => .ternary cond yes no :: (cond.parts ++ yes.parts ++ no.parts)

/-- The parts of expressions. -/
def Expr.partsOf : List Expr → List Expr
  | [] => []
  | e :: es => e.parts ++ Expr.partsOf es

/-- The parts of the keys and values of a map literal. -/
def Expr.entryParts : List (Expr × Expr) → List Expr
  | [] => []
  | (key, value) :: rest => key.parts ++ value.parts ++ Expr.entryParts rest

end

mutual

/-- An instruction and all instructions inside it. -/
def Instr.parts : Instr → List Instr
  | .branch branches otherwise =>
    .branch branches otherwise :: (Instr.branchParts branches ++ Instr.partsOf otherwise)
  | .loop key value iterable body otherwise =>
    .loop key value iterable body otherwise :: (Instr.partsOf body ++ Instr.partsOf otherwise)
  | .capture name body => .capture name body :: Instr.partsOf body
  | .transform t body => .transform t body :: Instr.partsOf body
  | .text s => [.text s]
  | .output e => [.output e]
  | .set name value => [.set name value]
  | .callBlock name => [.callBlock name]
  | .extend parent => [.extend parent]
  | .embed template vars only ignoreMissing => [.embed template vars only ignoreMissing]
  | .importAs template newName => [.importAs template newName]
  | .importNames template names => [.importNames template names]

/-- The parts of instructions. -/
def Instr.partsOf : List Instr → List Instr
  | [] => []
  | i :: is => i.parts ++ Instr.partsOf is

/-- The parts of the bodies of branches. -/
def Instr.branchParts : List (Expr × List Instr) → List Instr
  | [] => []
  | (_, body) :: rest => Instr.partsOf body ++ Instr.branchParts rest

end

/-- The expressions that stand in an instruction, those in its bodies aside. -/
def Instr.exprs : Instr → List Expr
  | .output e => [e]
  | .branch branches _ => branches.map Prod.fst
  | .loop _ _ iterable _ _ => [iterable]
  | .set _ value => [value]
  | .extend parent => [parent]
  | .embed template vars _ _ => template :: vars.toList
  | .importAs template _ => [template]
  | .importNames template _ => [template]
  | .text _ | .capture _ _ | .callBlock _ | .transform _ _ => []

/-- The expression that names the other template of an instruction. -/
def Instr.template? : Instr → Option Expr
  | .extend parent => some parent
  | .embed template _ _ _ | .importAs template _ | .importNames template _ => some template
  | _ => none

/-- Whether something holds of every part of an expression. -/
def Expr.Every (p : Expr → Prop) (e : Expr) : Prop :=
  ∀ x ∈ e.parts, p x

theorem Expr.mem_parts_self (e : Expr) : e ∈ e.parts := by
  cases e <;> simp [Expr.parts]

theorem Instr.mem_parts_self (i : Instr) : i ∈ i.parts := by
  cases i <;> simp [Instr.parts]

end Stencil
