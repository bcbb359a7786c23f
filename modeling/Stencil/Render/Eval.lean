import Stencil.Render.Level

/-!
# Evaluation

The value of an expression. A **path** (a name with attributes and indexes) may stand for
nothing. The walk over an expression therefore gives an optional value, and only where a
value is needed does a missing one become null, or a fault if the engine is strict. The
filter `default` and the test `defined` take the optional value as it is.
-/

namespace Stencil

namespace BinaryOp

/-- Whether an order is one that the comparison accepts. -/
def accepts : BinaryOp → Option Ordering → Bool
  | .lt, some .lt | .le, some .lt | .le, some .eq => true
  | .gt, some .gt | .ge, some .gt | .ge, some .eq => true
  | _, _ => false

/-- Applies an operator to its operands. -/
def apply (op : BinaryOp) (a b : Value) : Except Error Value :=
  match op with
  | .or => .ok (.bool (a.isTruthy || b.isTruthy))
  | .and => .ok (.bool (a.isTruthy && b.isTruthy))
  | .eq => .ok (.bool (a.looselyEquals b))
  | .ne => .ok (.bool (!a.looselyEquals b))
  | .lt | .gt | .le | .ge => .ok (.bool (op.accepts (a.compare? b)))
  | .mem => .ok (.bool (b.contains a))
  | .notMem => .ok (.bool (!b.contains a))
  | .range => Value.range a b none
  | .concat => .ok (.str (a.display ++ b.display))
  | .add => a.add b
  | .sub => a.sub b
  | .mul => a.mul b
  | .div => a.div b
  | .floorDiv => a.floorDiv b
  | .rem => a.rem b
  | .pow => a.pow b

/-- The value that the left operand alone decides on. -/
def shortcut? : BinaryOp → Value → Option Value
  | .or, a => if a.isTruthy then some (.bool true) else none
  | .and, a => if a.isTruthy then none else some (.bool false)
  | _, _ => none

end BinaryOp

/-- Applies an operator to its operand. -/
def UnaryOp.apply : UnaryOp → Value → Except Error Value
  | .not, v => .ok (.bool (!v.isTruthy))
  | .neg, v => v.neg
  | .pos, v => (Value.int 0).add v

/-- The tests by name, besides `defined`. -/
def Value.testOf? : String → Option (Value → Bool)
  | "null" | "none" => some isNull
  | "empty" => some isEmpty
  | "even" => some fun v => v.toInt?.any fun n => n.toInt % 2 == 0
  | "odd" => some fun v => v.toInt?.any fun n => n.toInt % 2 != 0
  | "iterable" => some isIterable
  | _ => none

namespace Expr

section Evaluation

variable (e : Engine) (below : Below)

/-- The value of a path that must stand for something, or null. -/
def orMissing (path : Expr) : Option Value → Action Value
  | some v => return v
  | none =>
    if e.config.strict then Action.fault (.undefinedVariable path.display) else return .null

/-- Calls what an unqualified name stands for: an imported macro, a macro of the owner, or
a function. -/
def callNamed (name : String) (args : List Value) : Action Value := do
  let c ← get
  match Table.find? name c.importedMacros with
  | some (t, ownName) => below.callMacro e t ownName args
  | none =>
    match c.owner?.filter fun t => (t.findMacro? name).isSome with
    | some t => below.callMacro e t name args
    | none =>
      match Table.find? name e.language.functions with
      | some f => Action.lift (f args)
      | none => Action.fault (.unknownFunction name)

/-- The template that stands before the dot of a qualified call: the owner as `_self`, or an
imported one. -/
def qualifier? (c : Context) : Expr → Option Template
  | .var name => if name = "_self" then c.owner? else Table.find? name c.imports
  | _ => none

/-- Applies a filter. -/
def applyFilter (name : String) (v : Value) (args : List Value) : Action Value :=
  match Table.find? name e.language.filters with
  | some f => Action.lift (f v args)
  | none => Action.fault (.unknownFilter name)

/-- Whether a call renders the parent of the current block. -/
def isParentCall (c : Context) (name : String) (args : List Expr) : Bool :=
  name = "parent" && args.isEmpty && !c.blocks.isEmpty

mutual

/-- The value of an expression, if it is not a path that stands for nothing. -/
def value? : Expr → Action (Option Value)
  | .literal v => return some v
  | .var name => return (← get).scope.lookup? name
  | .list items => return some (.list (← values items))
  | .map entries => return some (.map (← entryValues [] entries))
  | .attr target name => do
    return (← value? target).bind fun v => v.attr? name
  | .index target position => do
    let v ← value? target
    let i ← orMissing e position (← value? position)
    return v.bind fun v => v.item? i
  | .call (.var name) args => do
    if isParentCall (← get) name args then return some (← below.parentBlock e)
    else return some (← callNamed e below name (← values args))
  | .call (.attr target name) args => do
    match qualifier? (← get) target with
    | some t => return some (← below.callMacro e t name (← values args))
    | none => Action.fault (.notCallable (Expr.attr target name).display)
  | .call callee _ => Action.fault (.notCallable callee.display)
  | .filter input name args => do
    let v ← value? input
    let v ← if name = "default" then pure (v.getD .null) else orMissing e input v
    return some (← applyFilter e name v (← values args))
  | .test input name negated => do
    if name = "defined" then
      return some (.bool ((← value? input).isSome != negated))
    else match Value.testOf? name with
      | some holds =>
        let v ← orMissing e input (← value? input)
        return some (.bool (holds v != negated))
      | none => Action.fault (.unknownTest name)
  | .unary op operand => do
    let v ← orMissing e operand (← value? operand)
    return some (← Action.lift (op.apply v))
  | .binary op left right => do
    let a ← orMissing e left (← value? left)
    match op.shortcut? a with
    | some v => return some v
    | none =>
      let b ← orMissing e right (← value? right)
      return some (← Action.lift (op.apply a b))
  | .ternary cond yes no => do
    let c ← orMissing e cond (← value? cond)
    if c.isTruthy then return some (← orMissing e yes (← value? yes))
    else return some (← orMissing e no (← value? no))

/-- The values of expressions in their order. -/
def values : List Expr → Action (List Value)
  | [] => return []
  | item :: items => do
    let v ← orMissing e item (← value? item)
    return v :: (← values items)

/-- The entries of a map literal, added to those before them. -/
def entryValues (entries : Table Value) : List (Expr × Expr) → Action (Table Value)
  | [] => return entries
  | (key, item) :: rest => do
    let k ← orMissing e key (← value? key)
    let v ← orMissing e item (← value? item)
    entryValues (Table.insert k.display v entries) rest

end

/-- The value of an expression. -/
def eval (expr : Expr) : Action Value := do
  orMissing e expr (← value? e below expr)

end Evaluation

end Expr

end Stencil
