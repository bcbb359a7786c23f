import Stencil.Render.Eval
import Stencil.Text.Case

/-!
# Running instructions

A list of instructions runs in its order. An `extend` **hands over**: what is declared
after it in the same list still runs (imports and assignments), then the parent
renders, and then the list **halts**, together with every condition and loop around it.

`Engine.level` ties the levels together. The level of number `n` has `n` more below it,
so what runs on it can nest `n` deep.
-/

namespace Stencil

/-- Whether instructions go on after one has run. -/
inductive Flow where
  | goOn
  | halt
  deriving DecidableEq, Repr

/-- The text as the transform changes it. -/
def Transform.apply : Transform → String → String
  | .upper, s => Text.upper s

namespace Instr

/-- Whether an instruction only binds names. -/
def isDeclaration : Instr → Bool
  | .importAs .. | .importNames .. | .set .. => true
  | _ => false

/-- What a loop tells about itself in the round of an index. -/
def loopValue (index length : Nat) : Value :=
  .map (Table.ofEntries [
    ("index", Value.ofNat (index + 1)),
    ("index0", Value.ofNat index),
    ("revindex", Value.ofNat (length - index)),
    ("revindex0", Value.ofNat (length - index - 1)),
    ("first", .bool (index == 0)),
    ("last", .bool (index + 1 == length)),
    ("length", Value.ofNat length)])

/-- Binds the names of one round of a loop. -/
def bindRound (key : Option String) (value : String) (pair : Value × Value)
    (index length : Nat) : Action Unit := do
  match key with
  | some name => Action.push name pair.1
  | none => pure ()
  Action.push value pair.2
  Action.push "loop" (loopValue index length)

/-- One round of a loop. Its names are gone afterwards. -/
def round (key : Option String) (value : String) (length : Nat) (body : Action Flow)
    (index : Nat) (pair : Value × Value) : Action Flow :=
  Action.withLocals do
    bindRound key value pair index length
    body

/-- Runs the body of a loop for each pair from an index on, until it halts. -/
def rounds (key : Option String) (value : String) (length : Nat) (body : Action Flow) :
    (index : Nat) → List (Value × Value) → Action Flow
  | _, [] => return .goOn
  | index, pair :: pairs => do
    match ← round key value length body index pair with
    | .halt => return .halt
    | .goOn => rounds key value length body (index + 1) pairs

section Running

variable (e : Engine) (below : Below)

/-- Gets a template by its path; if `ignoreMissing`, none when there is no such template. -/
def fetchIncluded (path : String) (ignoreMissing : Bool) : Action (Option Template) := fun c =>
  match Action.fetch e path c with
  | (.ok t, c) => (.ok (some t), c)
  | (.error (.notFound name), c) =>
    (if ignoreMissing then .ok none else .error (.notFound name), c)
  | (.error fault, c) => (.error fault, c)

/-- The variables handed to an included template. -/
def includedVars : Option Expr → Action (Table Value)
  | none => return []
  | some vars => do
    match ← vars.eval e below with
    | .map entries => return entries
    | .null => return []
    | v => Action.fault (.includeVariables v.typeName)

/-- The template to import from: the owner as `_self`, or one fetched by its path. -/
def importedTemplate (template : Expr) : Action Template := do
  match template with
  | .var "_self" =>
    match (← get).owner? with
    | some t => return t
    | none => Action.fault .selfOutside
  | template => Action.fetch e (← template.eval e below).display

/-- Imports macros of a template, up to the first that it does not have. -/
def importEach (t : Template) : List (String × String) → Action Unit
  | [] => return ()
  | (name, newName) :: names => do
    if (t.findMacro? name).isNone then Action.fault (.macroUndefined name t.name)
    Action.importMacro newName t name
    importEach t names

mutual

/-- Runs one instruction. `declarations` is what is declared after it, which matters if it
hands over. -/
def step (declarations : Action Unit) : Instr → Action Flow
  | .text s => do
    Action.write s
    return .goOn
  | .output value => do
    Action.writeValue (← value.eval e below)
    return .goOn
  | .branch branches otherwise => firstBranch (sequence otherwise) branches
  | .loop key value iterable body otherwise => do
    let pairs ← Action.lift (← iterable.eval e below).pairs
    if pairs.isEmpty then sequence otherwise
    else rounds key value pairs.length (sequence body) 0 pairs
  | .set name value => do
    Action.set name (← value.eval e below)
    return .goOn
  | .capture name body => do
    Action.set name (.str (← Action.capture (discard (sequence body))))
    return .goOn
  | .callBlock name => do
    below.renderBlock e name
    return .goOn
  | .extend parent => do
    let t ← Action.fetch e (← parent.eval e below).display
    declarations
    below.callParent e t
    return .halt
  | .embed template vars only ignoreMissing => do
    match ← fetchIncluded e (← template.eval e below).display ignoreMissing with
    | some t => below.embed e t (← includedVars e below vars) only
    | none => pure ()
    return .goOn
  | .importAs template newName => do
    Action.importAs newName (← importedTemplate e below template)
    return .goOn
  | .importNames template names => do
    importEach (← importedTemplate e below template) names
    return .goOn
  | .transform t body => do
    Action.write (t.apply (← Action.capture (discard (sequence body))))
    return .goOn

/-- Runs instructions in their order until one halts. -/
def sequence : List Instr → Action Flow
  | [] => return .goOn
  | i :: rest => do
    match ← step (declarations rest) i with
    | .halt => return .halt
    | .goOn => sequence rest

/-- Runs the declarations among instructions and nothing else. -/
def declarations : List Instr → Action Unit
  | [] => return ()
  | i :: rest => do
    if i.isDeclaration then discard (step (pure ()) i)
    declarations rest

/-- Runs the first branch whose condition holds, or else the other action. -/
def firstBranch (otherwise : Action Flow) : List (Expr × List Instr) → Action Flow
  | [] => otherwise
  | (cond, body) :: rest => do
    if (← cond.eval e below).isTruthy then sequence body
    else firstBranch otherwise rest

end

end Running

end Instr

/-- The evaluator of the level that has a given one below it. -/
def Level.over (e : Engine) (below : Below) : Level where
  eval := Expr.eval e below
  run := fun instrs => discard (Instr.sequence e below instrs)

namespace Engine

/-- The level with `n` more levels below it. -/
def level (e : Engine) : (n : Nat) → Level
  | 0 => Level.over e none
  | n + 1 => Level.over e (some (.mk fun _ => e.level n))

/-- What is below the level of number `n`. -/
def below (e : Engine) : (n : Nat) → Below
  | 0 => none
  | n + 1 => some (.mk fun _ => e.level n)

theorem level_eq_over (e : Engine) (n : Nat) : e.level n = Level.over e (e.below n) := by
  cases n <;> rfl

/-- The level that a context is on. It has as many below it as the limit leaves. -/
def levelOf (e : Engine) (c : Context) : Level := e.level (e.config.maxDepth - c.depth)

/-- What is below the level that a context is on. -/
def belowOf (e : Engine) (c : Context) : Below := e.below (e.config.maxDepth - c.depth)

end Engine

end Stencil
