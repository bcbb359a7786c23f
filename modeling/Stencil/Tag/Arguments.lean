import Stencil.Expr.Parser
import Stencil.Tag.Basic

/-!
# Arguments of tags

What stands after the name of each built-in tag. All tokens of a tag must belong to its
arguments.
-/

namespace Stencil.Tag

open Token

/-- Takes this identifier, which a tag needs. -/
def needWord (word tag : String) (ts : List Token) : Except GrammarFault (List Token) :=
  if nextIsId word ts then .ok ts.tail else .error (.wordExpected word tag)

/-! ### Loops -/

/-- The arguments of a loop. -/
structure LoopHead where
  key : Option String
  value : String
  iterable : Expr

/-- `value in expression` or `key, value in expression`. -/
def loopHead (ts : List Token) : Except GrammarFault LoopHead := do
  let ⟨first, ts, _⟩ ← needId ts
  let (key, value, ts) ← match dropOp? "," ts with
    | some comma => do
      let second ← needId comma.rest
      pure (some first, second.value, second.rest)
    | none => pure (none, first, ts)
  let ts ← needWord "in" "for" ts
  return { key, value, iterable := ← Expr.parse ts }

/-! ### Assignments -/

/-- `name = expression`, or a name alone, whose value is the text up to the end tag. -/
def setHead (ts : List Token) : Except GrammarFault (String × Option Expr) := do
  let ⟨name, ts, _⟩ ← needId ts
  match dropOp? "=" ts with
  | some eq => return (name, some (← Expr.parse eq.rest))
  | none =>
    expectEnd "set" ts
    return (name, none)

/-! ### Other templates -/

/-- `ignore missing`, or nothing. -/
def takeIgnore (ts : List Token) : Except GrammarFault (Bool × List Token) :=
  match dropId? "ignore" ts with
  | none => .ok (false, ts)
  | some p => if nextIsId "missing" p.rest then .ok (true, p.rest.tail) else .error .missingExpected

/-- `with expression`, or nothing. -/
def takeVars (ts : List Token) : Except GrammarFault (Option Expr × List Token) :=
  match dropId? "with" ts with
  | none => .ok (none, ts)
  | some p => do
    let vars ← Expr.parseAt .ternary p.rest
    return (some vars.value, vars.rest)

/-- `expression [ignore missing] [with expression] [only]`. -/
def embedHead (ts : List Token) : Except GrammarFault Instr := do
  let ⟨template, ts, _⟩ ← Expr.parseAt .ternary ts
  let (ignoreMissing, ts) ← takeIgnore ts
  let (vars, ts) ← takeVars ts
  let ⟨only, ts, _⟩ := takeId "only" ts
  expectEnd "include" ts
  return .embed template vars only ignoreMissing

/-- `expression as name`. -/
def importHead (ts : List Token) : Except GrammarFault Instr := do
  let ⟨template, ts, _⟩ ← Expr.parseAt .ternary ts
  let ts ← needWord "as" "import" ts
  let ⟨newName, ts, _⟩ ← needId ts
  expectEnd "import" ts
  return .importAs template newName

/-- A name and its alias, which is the name itself if there is none. -/
def aliased (ts : List Token) : Except GrammarFault (Parsed (String × String) ts) := do
  let name ← needId ts
  match dropId? "as" name.rest with
  | some word => return name.andThen (word.andThen ((← needId word.rest).map (name.value, ·)))
  | none => return name.map fun n => (n, n)

/-- Names with their aliases, with commas between them. -/
def aliases (ts : List Token) : Except GrammarFault (List (String × String) × List Token) := do
  let ⟨first, ts₁, _h₁⟩ ← aliased ts
  match dropOp? "," ts₁ with
  | some ⟨_, ts₂, _h₂⟩ =>
    let (others, ts₃) ← aliases ts₂
    return (first :: others, ts₃)
  | none => return ([first], ts₁)
termination_by ts.length

/-- `expression import name [as name], …`. -/
def importNamesHead (ts : List Token) : Except GrammarFault Instr := do
  let ⟨template, ts, _⟩ ← Expr.parseAt .ternary ts
  let ts ← needWord "import" "from" ts
  let (names, ts) ← aliases ts
  expectEnd "from" ts
  return .importNames template names

/-! ### Macros -/

/-- A parameter, with its default if there is one. -/
def param (ts : List Token) : Except GrammarFault (Parsed (String × Option Expr) ts) := do
  let name ← needId ts
  match dropOp? "=" name.rest with
  | some eq =>
    let default ← Expr.parseAt .ternary eq.rest
    return name.andThen (eq.andThen (default.map (name.value, some ·)))
  | none => return name.map (·, none)

/-- Parameters with commas between them up to a closing parenthesis. -/
def params (ts : List Token) : Except GrammarFault (Params × List Token) := do
  match dropOp? ")" ts with
  | some close => return ([], close.rest)
  | none =>
    let ⟨first, ts₁, _h₁⟩ ← param ts
    match dropOp? "," ts₁ with
    | some ⟨_, ts₂, _h₂⟩ =>
      let (others, ts₃) ← params ts₂
      return (first :: others, ts₃)
    | none =>
      let close ← needOp ")" ts₁
      return ([first], close.rest)
termination_by ts.length

/-- `(parameters)`, or nothing. -/
def takeParams (ts : List Token) : Except GrammarFault (Params × List Token) :=
  match dropOp? "(" ts with
  | none => .ok ([], ts)
  | some p => params p.rest

/-- `name` or `name(parameters)`. -/
def macroHead (ts : List Token) : Except GrammarFault (String × Params) := do
  let ⟨name, ts, _⟩ ← needId ts
  let (params, ts) ← takeParams ts
  expectEnd "macro" ts
  return (name, params)

/-! ### End tags -/

/-- The end of a block or of a macro may repeat its name, and nothing else. -/
def closingName (term : Terminator) (name : String) : Except GrammarFault Unit := do
  match term.args with
  | [] => return ()
  | t :: ts =>
    if t.text ≠ name then throw (.closingName term.tag name t.text)
    expectEnd term.tag ts

end Stencil.Tag
