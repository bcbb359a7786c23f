import Stencil.Proofs.Moment.Script

/-!
# The code of an engine

What an engine runs, written out as scripts: expressions, instructions and the calls that they make.
Each script reads like the action that it stands for, with an entry in the place of what is done on
the level below, and each does that action, whatever is below (`Script.does_eval`,
`Script.does_sequence`). What an entry runs does what is done on the level that is entered
(`Entry.does_script`).
-/

namespace Stencil

namespace Script

section Code

variable (e : Engine)

/-! ### Calls -/

/-- The call of a template's own definition of a block. -/
def callBlock (t : Template) (name : String) : Script Unit :=
  match t.block? name with
  | none => fault (.blockNotIn name t.name)
  | some body => enter (.block t name body)

/-- The call of a macro of a template. -/
def callMacro (t : Template) (name : String) (args : List Value) : Script Value :=
  match t.findMacro? name with
  | none => fault (.macroNotIn name t.name)
  | some d => enter (.macroCall t d args)

/-- The hand-over to a parent. -/
def callParent (t : Template) : Script Unit := do
  act (.pushParent t)
  enter (.parent t)

/-- The rendering of a block of the chain. -/
def renderBlock (name : String) : Script Unit := do
  match (← look).blockProvider? name with
  | some t => callBlock t name
  | none => fault (.blockUndefined name)

/-- The text of the current block as the next parent defines it. -/
def parentBlock : Script Value := do
  let c ← look
  match c.blocks.head? with
  | none => fault .parentOutsideBlock
  | some (t, name) =>
    match c.parentProvider? t name with
    | none => fault (.noParentBlock name)
    | some parent => return .str (← within .capture (callBlock parent name))

/-! ### Expressions -/

/-- The value of a path that must stand for something, or null. -/
def orMissing (path : Expr) : Option Value → Script Value
  | some v => return v
  | none =>
    if e.config.strict then fault (.undefinedVariable path.display) else return .null

/-- The call of what an unqualified name stands for. -/
def callNamed (name : String) (args : List Value) : Script Value := do
  let c ← look
  match Table.find? name c.importedMacros with
  | some (t, ownName) => callMacro t ownName args
  | none =>
    match c.owner?.filter fun t => (t.findMacro? name).isSome with
    | some t => callMacro t name args
    | none =>
      match Table.find? name e.language.functions with
      | some f => ret (f args)
      | none => fault (.unknownFunction name)

/-- The application of a filter. -/
def applyFilter (name : String) (v : Value) (args : List Value) : Script Value :=
  match Table.find? name e.language.filters with
  | some f => ret (f v args)
  | none => fault (.unknownFilter name)

mutual

/-- The value of an expression, if it is not a path that stands for nothing. -/
def value? : Expr → Script (Option Value)
  | .literal v => return some v
  | .var name => return (← look).scope.lookup? name
  | .list items => return some (.list (← values items))
  | .map entries => return some (.map (← entryValues [] entries))
  | .attr target name => do
    return (← value? target).bind fun v => v.attr? name
  | .index target position => do
    let v ← value? target
    let i ← orMissing e position (← value? position)
    return v.bind fun v => v.item? i
  | .call (.var name) args => do
    if Expr.isParentCall (← look) name args then return some (← parentBlock)
    else return some (← callNamed e name (← values args))
  | .call (.attr target name) args => do
    match Expr.qualifier? (← look) target with
    | some t => return some (← callMacro t name (← values args))
    | none => fault (.notCallable (Expr.attr target name).display)
  | .call callee _ => fault (.notCallable callee.display)
  | .filter input name args => do
    let v ← value? input
    let v ← if name = "default" then pure (v.getD .null) else orMissing e input v
    return some (← applyFilter e name v (← values args))
  | .test input name negated => do
    if name = "defined" then
      return some (.bool ((← value? input).isSome != negated))
    else match Value.testOf? name with
      | some holds =>
        let v ← orMissing e input (← value? input)
        return some (.bool (holds v != negated))
      | none => fault (.unknownTest name)
  | .unary op operand => do
    let v ← orMissing e operand (← value? operand)
    return some (← ret (op.apply v))
  | .binary op left right => do
    let a ← orMissing e left (← value? left)
    match op.shortcut? a with
    | some v => return some v
    | none =>
      let b ← orMissing e right (← value? right)
      return some (← ret (op.apply a b))
  | .ternary cond yes no => do
    let c ← orMissing e cond (← value? cond)
    if c.isTruthy then return some (← orMissing e yes (← value? yes))
    else return some (← orMissing e no (← value? no))

/-- The values of expressions in their order. -/
def values : List Expr → Script (List Value)
  | [] => return []
  | item :: items => do
    let v ← orMissing e item (← value? item)
    return v :: (← values items)

/-- The entries of a map literal, added to those before them. -/
def entryValues (entries : Table Value) : List (Expr × Expr) → Script (Table Value)
  | [] => return entries
  | (key, item) :: rest => do
    let k ← orMissing e key (← value? key)
    let v ← orMissing e item (← value? item)
    entryValues (Table.insert k.display v entries) rest

end

/-- The value of an expression. -/
def eval (expr : Expr) : Script Value := do
  orMissing e expr (← value? e expr)

/-! ### Instructions -/

/-- The names of one round of a loop. -/
def bindRound (key : Option String) (value : String) (pair : Value × Value)
    (index length : Nat) : Script Unit := do
  match key with
  | some name => act (.push name pair.1)
  | none => pure ()
  act (.push value pair.2)
  act (.push "loop" (Instr.loopValue index length))

/-- One round of a loop. -/
def round (key : Option String) (value : String) (length : Nat) (body : Script Flow)
    (index : Nat) (pair : Value × Value) : Script Flow :=
  within .locals do
    bindRound key value pair index length
    body

/-- The rounds of a loop from an index on, until one halts. -/
def rounds (key : Option String) (value : String) (length : Nat) (body : Script Flow) :
    (index : Nat) → List (Value × Value) → Script Flow
  | _, [] => return .goOn
  | index, pair :: pairs => do
    match ← round key value length body index pair with
    | .halt => return .halt
    | .goOn => rounds key value length body (index + 1) pairs

/-- The template of a path. -/
def fetch (path : String) : Script Template :=
  act (.onStore (e.fetch path))

/-- The template of a path; if `ignoreMissing`, none when there is no such template. -/
def fetchIncluded (path : String) (ignoreMissing : Bool) : Script (Option Template) :=
  act (.onStore fun s => Instr.fetchedIncluded ignoreMissing (e.fetch path s))

/-- The variables handed to an included template. -/
def includedVars : Option Expr → Script (Table Value)
  | none => return []
  | some vars => do
    match ← eval e vars with
    | .map entries => return entries
    | .null => return []
    | v => fault (.includeVariables v.typeName)

/-- The template to import from. -/
def importedTemplate (template : Expr) : Script Template := do
  match template with
  | .var "_self" =>
    match (← look).owner? with
    | some t => return t
    | none => fault .selfOutside
  | template => fetch e (← eval e template).display

/-- The imports of macros of a template, up to the first that it does not have. -/
def importEach (t : Template) : List (String × String) → Script Unit
  | [] => return ()
  | (name, newName) :: names => do
    if (t.findMacro? name).isNone then fault (.macroUndefined name t.name)
    act (.importMacro newName t name)
    importEach t names

mutual

/-- One instruction. `declarations` is what is declared after it. -/
def step (declarations : Script Unit) : Instr → Script Flow
  | .text s => do
    act (.write s)
    return .goOn
  | .output value => do
    act (.write (← eval e value).display)
    return .goOn
  | .branch branches otherwise => firstBranch (sequence otherwise) branches
  | .loop key value iterable body otherwise => do
    let pairs ← ret (← eval e iterable).pairs
    if pairs.isEmpty then sequence otherwise
    else rounds key value pairs.length (sequence body) 0 pairs
  | .set name value => do
    act (.set name (← eval e value))
    return .goOn
  | .capture name body => do
    act (.set name (.str (← within .capture (discard (sequence body)))))
    return .goOn
  | .callBlock name => do
    renderBlock name
    return .goOn
  | .extend parent => do
    let t ← fetch e (← eval e parent).display
    declarations
    callParent t
    return .halt
  | .embed template vars only ignoreMissing => do
    match ← fetchIncluded e (← eval e template).display ignoreMissing with
    | some t => enter (.embed t (← includedVars e vars) only)
    | none => pure ()
    return .goOn
  | .importAs template newName => do
    act (.importAs newName (← importedTemplate e template))
    return .goOn
  | .importNames template names => do
    importEach (← importedTemplate e template) names
    return .goOn
  | .transform t body => do
    act (.write (t.apply (← within .capture (discard (sequence body)))))
    return .goOn

/-- Instructions in their order until one halts. -/
def sequence : List Instr → Script Flow
  | [] => return .goOn
  | i :: rest => do
    match ← step (declarations rest) i with
    | .halt => return .halt
    | .goOn => sequence rest

/-- The declarations among instructions and nothing else. -/
def declarations : List Instr → Script Unit
  | [] => return ()
  | i :: rest => do
    if i.isDeclaration then discard (step (pure ()) i)
    declarations rest

/-- The first branch whose condition holds, or else the other script. -/
def firstBranch (otherwise : Script Flow) : List (Expr × List Instr) → Script Flow
  | [] => otherwise
  | (cond, body) :: rest => do
    if (← eval e cond).isTruthy then sequence body
    else firstBranch otherwise rest

end

/-! ### What is entered -/

/-- Instructions of their own. -/
def run (instrs : List Instr) : Script Unit :=
  discard (sequence e instrs)

/-- The rendering of a template, which begins a chain of its own. -/
def render (t : Template) : Script Unit :=
  within (.template t) (within (.owner t) (run e t.main))

/-- The value of a parameter: the argument, or else the default, or else null. -/
def paramValue : Option Value → Option Expr → Script Value
  | some arg, _ => return arg
  | none, some default => eval e default
  | none, none => return .null

/-- The parameters, bound to arguments in their order. -/
def bindParams : Params → List Value → Script Unit
  | [], _ => return ()
  | (name, default) :: params, args => do
    act (.push name (← paramValue e args.head? default))
    bindParams params args.tail

end Code

end Script

/-- What is run when something has been entered. -/
def Entry.script (e : Engine) : {α : Type} → Entry α → Script α
  | _, embed t vars only => .within .freshImports (
    if only then .within (.scope { root := vars }) (Script.render e t)
    else .within .locals do
      vars.forM fun v => Script.act (.push v.1 v.2)
      Script.render e t)
  | _, parent t => .within (.owner t) (Script.run e t.main)
  | _, block t name body => .within (.block t name) (.within (.owner t) (Script.run e body))
  | _, macroCall t d args => .within (.scope {}) do
    Script.bindParams e d.params args
    return .str (← .within .capture (.within (.owner t) (Script.run e d.body)))

end Stencil
