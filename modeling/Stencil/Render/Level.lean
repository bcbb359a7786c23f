import Stencil.Render.Context

/-!
# Levels of nesting

Including a template, handing over to a parent, rendering a block and calling a macro
each begin a new **level** of nesting, and an engine limits how many there are. So
everything is run relative to the level below the current one: `Level` is the evaluator
of that level, and there is none where the limit is reached.

This file says what runs on the level below; how expressions and instructions call it is
told in `Stencil.Render.Eval` and `Stencil.Render.Run`.
-/

namespace Stencil

/-- The evaluator of one level of nesting. -/
structure Level where
  eval : Expr → Action Value
  run : List Instr → Action Unit

namespace Level

/-- Renders a template, which begins a chain of its own. -/
def render (l : Level) (t : Template) : Action Unit :=
  Action.withTemplate t (Action.withOwner t (l.run t.main))

/-- The value of a parameter: the argument, or else the default, or else null. -/
def paramValue (l : Level) : Option Value → Option Expr → Action Value
  | some arg, _ => return arg
  | none, some default => l.eval default
  | none, none => return .null

/-- Binds parameters to arguments in their order. A default may use the parameters
before it. -/
def bindParams (l : Level) : Params → List Value → Action Unit
  | [], _ => return ()
  | (name, default) :: params, args => do
    Action.push name (← l.paramValue args.head? default)
    l.bindParams params args.tail

end Level

/-- What is one level below, if the limit allows it. A level comes into being when it is
descended to, so a limit costs nothing before it is used. -/
abbrev Below := Option (Thunk Level)

namespace Below

/-- Does something on the level below. -/
def descend {α : Type} (e : Engine) (body : Level → Action α) : Below → Action α
  | none => Action.fault (.tooDeep e.config.maxDepth)
  | some l => Action.deeper (body l.get)

/-- Renders the template's own definition of a block. -/
def callBlock (e : Engine) (below : Below) (t : Template) (name : String) : Action Unit :=
  match t.block? name with
  | none => Action.fault (.blockNotIn name t.name)
  | some body => below.descend e fun l =>
    Action.withBlock t name (Action.withOwner t (l.run body))

/-- What a macro of the template writes. It sees its parameters and nothing else. -/
def callMacro (e : Engine) (below : Below) (t : Template) (name : String) (args : List Value) :
    Action Value :=
  match t.findMacro? name with
  | none => Action.fault (.macroNotIn name t.name)
  | some d => below.descend e fun l => Action.isolated do
    l.bindParams d.params args
    return .str (← Action.capture (Action.withOwner t (l.run d.body)))

/-- Hands the rendering over to a parent, which joins the chain. -/
def callParent (e : Engine) (below : Below) (t : Template) : Action Unit := do
  Action.pushParent t
  below.descend e fun l => Action.withOwner t (l.run t.main)

/-- Renders a block of the chain. -/
def renderBlock (e : Engine) (below : Below) (name : String) : Action Unit := do
  match (← get).blockProvider? name with
  | some t => below.callBlock e t name
  | none => Action.fault (.blockUndefined name)

/-- The text of the current block as the next parent defines it. -/
def parentBlock (e : Engine) (below : Below) : Action Value := do
  let c ← get
  match c.blocks.head? with
  | none => Action.fault .parentOutsideBlock
  | some (t, name) =>
    match c.parentProvider? t name with
    | none => Action.fault (.noParentBlock name)
    | some parent => return .str (← Action.capture (below.callBlock e parent name))

/-- Renders an included template. It sees the names around it as well as `vars`, unless
`only` those. -/
def embed (e : Engine) (below : Below) (t : Template) (vars : Table Value) (only : Bool) :
    Action Unit :=
  below.descend e fun l => Action.withFreshImports (
    if only then Action.withScope { root := vars } (l.render t)
    else Action.withLocals do
      vars.forM fun v => Action.push v.1 v.2
      l.render t)

end Below

end Stencil
